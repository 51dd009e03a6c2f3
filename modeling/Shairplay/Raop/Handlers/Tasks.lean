import Shairplay.Raop.Handlers.Legacy
import Shairplay.Raop.Handlers.Pairing

/-!
# Audio receivers and their handles

A receiver is stopped through the shutdown channel of its RTP session, through the command
sender of its connection, or through the one slot for the active audio of the server. What a
request may do to these handles is listed once, with the receivers it starts and those it tells
to stop. Whether it lets go of an RTP session, or opens a timing socket without one, is told from
the request and the state before it.
-/

namespace Shairplay.Raop

open Lib Proto Crypto

/-- What a handle does when it is used. -/
def StopHandle.effect : StopHandle → Effect
  | .abort task => .audioAborted task
  | .command task => .playoutCommand task .stop

/-- The start of a receiver that is registered in the slot for the active audio. -/
def Effect.registers : Effect → Bool
  | .audioStarted (.realtime _ _ _) => true
  | .audioStarted (.buffered _ _ _ _) => true
  | _ => false

/-- The shutdown channel of a session is used or dropped. -/
def Effect.endsSession : Effect → Bool
  | .rtpShutdown _ => true
  | _ => false

namespace AudioHandles

/-- The receiver behind the shutdown channel. -/
def shutdown (h : AudioHandles) : Option Nat := h.raopRtp.bind RaopRtp.shutdownTx

/-- What ends when the shutdown channel is let go. -/
def shutdowns (h : AudioHandles) : List Effect := h.shutdown.toList.map .rtpShutdown

/-- What ends when the slot for the active audio is taken. -/
def displaced (h : AudioHandles) : List Effect := h.activeAudio.toList.map StopHandle.effect

theorem endsSession_of_mem_displaced {h : AudioHandles} {effect : Effect}
    (mem : effect ∈ h.displaced) : effect.endsSession = false := by
  obtain ⟨stop, -, rfl⟩ := List.mem_map.mp mem
  cases stop <;> rfl

end AudioHandles

/-- What a request may do to the handles, with the effects that start receivers and those that stop
others. Buffered receivers and their commands are part of builds with `ap2`. -/
inductive AudioStep (ap2 : Bool) (h : AudioHandles) : List Effect → List Effect → AudioHandles → Prop
  | idle : AudioStep ap2 h [] [] h
  /-- The RTP session is replaced by one that was not started, or by none. -/
  | replaced {raopRtp : Option RaopRtp} : raopRtp.bind RaopRtp.shutdownTx = none →
      AudioStep ap2 h [] h.shutdowns { h with raopRtp }
  /-- An RTP session could not open its sockets. -/
  | failed {raopRtp : Option RaopRtp} : raopRtp.bind RaopRtp.shutdownTx = some h.nextTask →
      AudioStep ap2 h [] h.shutdowns { h with raopRtp, nextTask := h.nextTask + 1 }
  | launched {raopRtp : Option RaopRtp} {start : Effect} :
      raopRtp.bind RaopRtp.shutdownTx = some h.nextTask → start.starts = some h.nextTask →
      start.registers = false →
      AudioStep ap2 h [start] h.shutdowns { h with raopRtp, nextTask := h.nextTask + 1 }
  | realtime {start : Effect} : start.starts = some h.nextTask → start.registers = true →
      AudioStep ap2 h [start] h.displaced
        { h with activeAudio := some (.abort h.nextTask), nextTask := h.nextTask + 1 }
  | buffered {start : Effect} : ap2 = true → start.starts = some h.nextTask →
      start.registers = true →
      AudioStep ap2 h [start] h.displaced
        { h with
          playoutCmd := some h.nextTask
          activeAudio := some (.command h.nextTask)
          nextTask := h.nextTask + 1 }
  | teardown :
      AudioStep ap2 h []
        (h.shutdowns ++
          (if ap2 then h.playoutCmd else none).toList.map (.playoutCommand · .stop))
        { h with raopRtp := none }

/-- The new effects that start receivers and those that stop others. A timing socket is opened only
if that is expected. -/
def Emits (opens : Prop) (starts stops : List Effect) (w w' : World) : Prop :=
  ∃ new, w'.effects = w.effects ++ new ∧
    new.filter (fun effect => effect.starts.isSome) = starts ∧
    new.filter (fun effect => effect.stops.isSome) = stops ∧
    ∀ effect ∈ new, effect.opensTiming = true → opens

namespace Emits

variable {opens : Prop} {starts stops starts' stops' : List Effect} {w w' w'' : World}

theorem trans (first : Emits opens starts stops w w') (second : Emits opens starts' stops' w' w'') :
    Emits opens (starts ++ starts') (stops ++ stops') w w'' := by
  obtain ⟨new, eq, started, stopped, opened⟩ := first
  obtain ⟨new', eq', started', stopped', opened'⟩ := second
  refine ⟨new ++ new', by rw [eq', eq, List.append_assoc], ?_, ?_, ?_⟩
  · rw [List.filter_append, started, started']
  · rw [List.filter_append, stopped, stopped']
  · exact List.forall_mem_append.mpr ⟨opened, opened'⟩

theorem of_eq (effects : w'.effects = w.effects) : Emits opens [] [] w w' :=
  ⟨[], by simp [effects], rfl, rfl, by simp⟩

theorem emit_stop (w : World) {effect : Effect} (calm : effect.starts = none)
    (stops : effect.stops.isSome = true) : Emits opens [] [effect] w (w.emit effect) := by
  refine ⟨[effect], rfl, by simp [calm], by simp [stops], ?_⟩
  rw [List.forall_mem_singleton]
  cases effect with
  | timingStarted => cases stops
  | _ => rintro ⟨⟩

theorem emit_start (w : World) {effect : Effect} {task : Nat} (starts : effect.starts = some task)
    (calm : effect.stops = none) : Emits opens [effect] [] w (w.emit effect) := by
  refine ⟨[effect], rfl, by simp [starts], by simp [calm], ?_⟩
  rw [List.forall_mem_singleton]
  cases effect with
  | timingStarted => cases starts
  | _ => rintro ⟨⟩

theorem emit_timing (w : World) (remotePort : Nat) (opened : opens) :
    Emits opens [] [] w (w.emit (.timingStarted remotePort)) :=
  ⟨[_], rfl, rfl, rfl, fun _ _ _ => opened⟩

/-- Effects that neither start nor stop anything. -/
theorem of_inert (effects : ∃ new, w'.effects = w.effects ++ new ∧ ∀ effect ∈ new, Inert effect) :
    Emits opens [] [] w w' := by
  obtain ⟨new, eq, inert⟩ := effects
  refine ⟨new, eq, ?_, ?_, ?_⟩
  · rw [List.filter_eq_nil_iff]
    intro effect mem
    simp [(inert effect mem).1]
  · rw [List.filter_eq_nil_iff]
    intro effect mem
    simp [(inert effect mem).2.1]
  · intro effect mem opened
    cases (inert effect mem).2.2.symm.trans opened

theorem then_eq (emits : Emits opens starts stops w w') (effects : w''.effects = w'.effects) :
    Emits opens starts stops w w'' := by
  have both := emits.trans (of_eq effects)
  simpa only [List.append_nil] using both

end Emits

theorem Still.emits {opens : Prop} {w w' : World} (still : Still w w') : Emits opens [] [] w w' :=
  .of_inert still.effects

theorem Emits.then_still {opens : Prop} {starts stops : List Effect} {w w' w'' : World}
    (emits : Emits opens starts stops w w') (still : Still w' w'') :
    Emits opens starts stops w w'' := by
  have both := emits.trans still.emits
  simpa only [List.append_nil] using both

/-- What is known of a request beforehand: whether the build has `ap2`, and whether the request
may let go of the RTP session or open a timing socket. -/
structure Scope where
  ap2 : Bool
  releases : Prop
  opensTiming : Prop

/-- A step of the handles with its effects. -/
def Steers (scope : Scope) (w w' : World) : Prop :=
  ∃ starts stops, Emits scope.opensTiming starts stops w w' ∧
    AudioStep scope.ap2 w.audio starts stops w'.audio ∧
    ∀ effect ∈ stops, effect.endsSession = true → scope.releases

namespace Steers

variable {scope : Scope} {w w' w'' : World}

/-- A step for which the session is let go. -/
theorem of_releases {starts stops : List Effect} (releases : scope.releases)
    (emits : Emits scope.opensTiming starts stops w w')
    (step : AudioStep scope.ap2 w.audio starts stops w'.audio) : Steers scope w w' :=
  ⟨starts, stops, emits, step, fun _ _ _ => releases⟩

/-- A step for which the slot is taken. -/
theorem of_displaced {starts : List Effect}
    (emits : Emits scope.opensTiming starts w.audio.displaced w w')
    (step : AudioStep scope.ap2 w.audio starts w.audio.displaced w'.audio) : Steers scope w w' := by
  refine ⟨starts, _, emits, step, fun effect mem ends => ?_⟩
  cases (AudioHandles.endsSession_of_mem_displaced mem).symm.trans ends

/-- The handles are left alone. -/
theorem of_idle (audio : w'.audio = w.audio) (emits : Emits scope.opensTiming [] [] w w') :
    Steers scope w w' := by
  refine ⟨[], [], emits, ?_, by simp⟩
  rw [audio]
  exact .idle

theorem of_still (still : Still w w') : Steers scope w w' := of_idle still.audio still.emits

theorem after_still (still : Still w w') (steers : Steers scope w' w'') : Steers scope w w'' := by
  obtain ⟨starts, stops, emits, step, ends⟩ := steers
  rw [still.audio] at step
  exact ⟨starts, stops, still.emits.trans emits, step, ends⟩

theorem then_still (steers : Steers scope w w') (still : Still w' w'') : Steers scope w w'' := by
  obtain ⟨starts, stops, emits, step, ends⟩ := steers
  exact ⟨starts, stops, emits.then_still still, by rwa [still.audio], ends⟩

end Steers

variable {scope : Scope} {env : Platform} {config : RaopConfig} {w : World} {request : Request}
variable {response : HttpResponse} {opens : Prop}

theorem emits_releaseRtp (w : World) : Emits opens [] w.audio.shutdowns w w.releaseRtp := by
  cases held : w.audio.shutdown with
  | none =>
    have same : w.releaseRtp = w := by
      have none : w.conn.raopRtp.bind RaopRtp.shutdownTx = none := held
      simp only [World.releaseRtp, none]
    rw [AudioHandles.shutdowns, held, same]
    exact .of_eq rfl
  | some task =>
    have told : w.releaseRtp = w.emit (.rtpShutdown task) := by
      have some : w.conn.raopRtp.bind RaopRtp.shutdownTx = some task := held
      simp only [World.releaseRtp, some]
    rw [AudioHandles.shutdowns, held, told]
    exact .emit_stop w rfl rfl

/-- Letting go of a channel leaves the handles to be replaced. -/
theorem releaseRtp_audio (w : World) : w.releaseRtp.audio = w.audio := by
  unfold World.releaseRtp
  split <;> rfl

theorem emits_replace (w : World) (raopRtp : Option RaopRtp) :
    Emits opens [] w.audio.shutdowns w (w.releaseRtp.setRtp raopRtp) :=
  (emits_releaseRtp w).then_eq rfl

theorem replace_audio (w : World) (raopRtp : Option RaopRtp) :
    (w.releaseRtp.setRtp raopRtp).audio = { w.audio with raopRtp } := by
  rw [← releaseRtp_audio w]
  rfl

theorem shutdownTx_new (rtpmap : List Char) (fmtp : Option (List Char))
    (encryption : Option AesSession) :
    (RaopRtp.new rtpmap fmtp encryption).bind RaopRtp.shutdownTx = none := by
  unfold RaopRtp.new
  split <;> rfl

theorem steers_replace (releases : scope.releases) {raopRtp : Option RaopRtp}
    (fresh : raopRtp.bind RaopRtp.shutdownTx = none) :
    Steers scope w (w.releaseRtp.setRtp raopRtp) := by
  refine .of_releases releases (emits_replace w raopRtp) ?_
  rw [replace_audio]
  exact .replaced fresh

theorem steers_announceSession (releases : scope.releases) (rtpmap : List Char)
    (fmtp : Option (List Char)) (encryption : Option AesSession) :
    Steers scope w (announceSession w response rtpmap fmtp encryption).world := by
  have replaced : Steers scope w (w.releaseRtp.setRtp (RaopRtp.new rtpmap fmtp encryption)) :=
    steers_replace releases (shutdownTx_new rtpmap fmtp encryption)
  unfold announceSession
  dsimp only
  split
  · exact replaced.then_still ((Still.refl _).emit ⟨rfl, rfl, rfl⟩)
  · exact replaced

/-- The body announces a session that can be used: it names a connection and a format, and either
no key and no vector, or one key and a vector that can be recovered. -/
def announcesSession (env : Platform) (w : World) (request : Request) : Bool :=
  match request.body.bind Utf8.fromUtf8 with
  | none => false
  | some text =>
    let sdp := Sdp.parse text.toList
    sdp.connection.isSome && sdp.rtpmap.isSome &&
      if sdp.rsaaeskey.isSome || sdp.fpaeskey.isSome then
        !(sdp.rsaaeskey.isSome && sdp.fpaeskey.isSome) &&
          ((announcedKey env w sdp).2.filter fun key => 16 ≤ key.length).isSome &&
          (announcedIv env sdp).isSome
      else sdp.aesiv.isNone

theorem steers_handleAnnounce (replaces : announcesSession env w request = true → scope.releases) :
    Steers scope w (handleAnnounce env w request response).world := by
  have idle : Steers scope w w := .of_still (.refl w)
  unfold handleAnnounce
  unfold announcesSession at replaces
  split
  · exact idle
  · rename_i text body
    dsimp only
    split
    · rename_i rtpmap connection format
      simp only [body, connection, format, Option.isSome_some, Bool.true_and] at replaces
      split
      · exact idle
      · rename_i single
        split
        · exact idle
        · rename_i vector
          split
          · rename_i plain
            rw [Bool.not_eq_true', ← Bool.not_eq_true] at plain
            rw [if_neg plain] at replaces
            refine steers_announceSession (replaces ?_) _ _ _
            simpa [plain] using vector
          · rename_i keyed
            rw [Bool.not_eq_true', Bool.not_eq_false] at keyed
            rw [if_pos keyed] at replaces
            split
            · exact .of_still (still_announcedKey _)
            · rename_i key known
              split
              · exact .of_still (still_announcedKey _)
              · rename_i iv recovered
                refine .after_still (still_announcedKey _)
                  (steers_announceSession (replaces ?_) _ _ _)
                rw [known, recovered, Bool.eq_false_of_not_eq_true single]
                rfl
    · exact idle

/-- What starting a session does: the old receiver is told to stop in any case. -/
structure Starts (rtp : RaopRtp) (w : World)
    (outcome : World × Option (Nat × Nat × Nat × Nat)) : Prop where
  emits : ∀ opens, Emits opens [] w.audio.shutdowns w outcome.1
  audio : outcome.1.audio =
    { w.audio with
      raopRtp := some { rtp with shutdownTx := some w.audio.nextTask }
      nextTask := w.audio.nextTask + 1 }
  task : ∀ task ports, outcome.2 = some (task, ports) → task = w.audio.nextTask

theorem starts_startRtp (w : World) (rtp : RaopRtp) (useUdp : Bool) :
    Starts rtp w (startRtp w rtp useUdp) := by
  have numbered : w.releaseRtp.shared.nextTask = w.audio.nextTask :=
    congrArg AudioHandles.nextTask (releaseRtp_audio w)
  have opened : ((w.releaseRtp.spawnAudio.1).setRtp
      (some { rtp with shutdownTx := some w.releaseRtp.spawnAudio.2 })).audio =
      { w.audio with
        raopRtp := some { rtp with shutdownTx := some w.audio.nextTask }
        nextTask := w.audio.nextTask + 1 } := by
    rw [← releaseRtp_audio w]
    rfl
  have bound : Still ((w.releaseRtp.spawnAudio.1).setRtp
      (some { rtp with shutdownTx := some w.releaseRtp.spawnAudio.2 })) (startRtp w rtp useUdp).1 :=
    still_bindRtp useUdp
  refine ⟨fun opens => ?_, bound.audio.trans opened, ?_⟩
  · have released : Emits opens [] w.audio.shutdowns w ((w.releaseRtp.spawnAudio.1).setRtp
        (some { rtp with shutdownTx := some w.releaseRtp.spawnAudio.2 })) :=
      (emits_releaseRtp w).then_eq rfl
    exact released.then_still bound
  · intro task ports started
    obtain ⟨found, -, is⟩ := Option.map_eq_some_iff.mp started
    rw [← (Prod.mk.inj is).1]
    exact numbered

namespace Starts

variable {rtp : RaopRtp} {outcome : World × Option (Nat × Nat × Nat × Nat)}

theorem steers (starts : Starts rtp w outcome) (releases : scope.releases) :
    Steers scope w outcome.1 := by
  refine .of_releases releases (starts.emits _) ?_
  rw [starts.audio]
  exact .failed rfl

/-- A receiver that runs is reported. -/
theorem steers_emit (starts : Starts rtp w outcome) (releases : scope.releases) {task : Nat}
    {ports : Nat × Nat × Nat} (running : outcome.2 = some (task, ports)) {effect : Effect}
    (started : effect.starts = some task) (calm : effect.stops = none)
    (unregistered : effect.registers = false) : Steers scope w (outcome.1.emit effect) := by
  have reported := (starts.emits scope.opensTiming).trans (.emit_start outcome.1 started calm)
  rw [starts.task task ports running] at started
  refine @Steers.of_releases scope w _ [effect] w.audio.shutdowns releases ?_ ?_
  · simpa only [List.append_nil, List.nil_append] using reported
  · have same : (outcome.1.emit effect).audio = outcome.1.audio := rfl
    rw [same, starts.audio]
    exact .launched rfl started unregistered

end Starts

/-- A session that has just replaced another one lets go of nothing when it is started. -/
theorem starts_replaced (w : World) {rtp : RaopRtp} (fresh : rtp.shutdownTx = none)
    (useUdp : Bool) : Starts rtp w (startRtp (w.releaseRtp.setRtp (some rtp)) rtp useUdp) := by
  have starts := starts_startRtp (w.releaseRtp.setRtp (some rtp)) rtp useUdp
  have replaced := replace_audio w (some rtp)
  have nothing : (w.releaseRtp.setRtp (some rtp)).audio.shutdowns = [] := by
    rw [replaced, AudioHandles.shutdowns, AudioHandles.shutdown]
    simp only [Option.bind_some, fresh, Option.toList_none, List.map_nil]
  refine ⟨fun opens => ?_, ?_, ?_⟩
  · have both := (emits_replace w (some rtp)).trans (starts.emits opens)
    rw [nothing] at both
    simpa only [List.append_nil] using both
  · rw [starts.audio, replaced]
  · intro task ports started
    rw [starts.task task ports started, replaced]

theorem steers_handleSetupAp1
    (replaces : (request.header "Transport").isSome = true → scope.releases) :
    Steers scope w (handleSetupAp1 w request response).world := by
  have offered : Still w (offerRemoteControl w request) := still_offerRemoteControl
  unfold handleSetupAp1
  split
  · exact .of_still (.refl w)
  · rename_i transport given
    have releases := replaces (by rw [given]; rfl)
    dsimp only
    split
    · exact .of_still offered
    · have starts := starts_startRtp (offerRemoteControl w request) ‹_›
        (!("RTP/AVP/TCP".toList.isPrefixOf transport.toList))
      split
      · exact .after_still offered
          ((starts.steers releases).then_still ((Still.refl _).emit ⟨rfl, rfl, rfl⟩))
      · exact .after_still offered (starts.steers_emit releases ‹_› rfl rfl rfl)

/-- The RTP session is let go. -/
theorem stopRtp_emits (w : World) :
    Emits opens [] w.audio.shutdowns w w.stopRtp ∧
      w.stopRtp.audio = { w.audio with raopRtp := none } := by
  cases playing : w.audio.raopRtp with
  | none =>
    have nothing : w.audio.shutdowns = [] := by
      rw [AudioHandles.shutdowns, AudioHandles.shutdown, playing]
      rfl
    have same : w.stopRtp = w := by
      have none : w.conn.raopRtp = none := playing
      simp only [World.stopRtp, none]
    rw [nothing, same, ← playing]
    exact ⟨.of_eq rfl, rfl⟩
  | some rtp =>
    have stopped : w.stopRtp = (w.releaseRtp.setRtp none).emit .rtpStopped := by
      have some : w.conn.raopRtp = some rtp := playing
      simp only [World.stopRtp, some]
    rw [stopped]
    exact ⟨(emits_replace w none).then_still ((Still.refl _).emit ⟨rfl, rfl, rfl⟩),
      replace_audio w none⟩

/-- TEARDOWN lets go of the RTP session and stops the buffered receiver. -/
theorem handleTeardown_emits (config : RaopConfig) (w : World) (request : Request)
    (response : HttpResponse) :
    Emits opens [] (w.audio.shutdowns ++
        (if config.features.ap2 then w.audio.playoutCmd else none).toList.map
          (.playoutCommand · .stop)) w
      (handleTeardown config w request response).world ∧
    (handleTeardown config w request response).world.audio = { w.audio with raopRtp := none } := by
  obtain ⟨emits, audio⟩ := stopRtp_emits w
  have commanded : w.stopRtp.conn.playoutCmd = w.audio.playoutCmd :=
    congrArg AudioHandles.playoutCmd audio
  unfold handleTeardown
  dsimp only at audio ⊢
  cases sender : w.audio.playoutCmd with
  | none =>
    rw [sender] at commanded audio
    simp only [commanded, ite_self, Option.toList_none, List.map_nil, List.append_nil]
    exact ⟨emits, audio⟩
  | some task =>
    rw [sender] at commanded audio
    simp only [commanded]
    cases config.features.ap2 with
    | false =>
      simp only [Bool.false_eq_true, if_false, Option.toList_none, List.map_nil, List.append_nil]
      exact ⟨emits, audio⟩
    | true => exact ⟨emits.trans (.emit_stop w.stopRtp rfl rfl), audio⟩

theorem steers_handleTeardown (built : scope.ap2 = config.features.ap2) (releases : scope.releases)
    (request : Request) : Steers scope w (handleTeardown config w request response).world := by
  obtain ⟨emits, audio⟩ := handleTeardown_emits config w request response
  refine .of_releases releases emits ?_
  rw [audio, ← built]
  exact .teardown

theorem setActiveAudio_emits (w : World) (stop : StopHandle) :
    Emits opens [] w.audio.displaced w (w.setActiveAudio stop) := by
  unfold World.setActiveAudio AudioHandles.displaced World.audio
  cases w.shared.activeAudio with
  | none => exact .of_eq rfl
  | some previous =>
    cases previous with
    | abort task =>
      exact .emit_stop { w with shared := { w.shared with activeAudio := some stop } } rfl rfl
    | command task =>
      exact .emit_stop { w with shared := { w.shared with activeAudio := some stop } } rfl rfl

theorem setActiveAudio_audio (w : World) (stop : StopHandle) :
    (w.setActiveAudio stop).audio = { w.audio with activeAudio := some stop } := by
  unfold World.setActiveAudio
  dsimp only
  split <;> rfl

/-- A receiver is numbered and reported. -/
theorem spawned_emits {started : World} (still : Still w started) {effect : Effect}
    (starts : effect.starts = some w.audio.nextTask) (calm : effect.stops = none) :
    Emits opens [effect] [] w (started.spawnAudio.1.emit effect) := by
  have spawned : Emits opens [] [] w started.spawnAudio.1 := still.emits.then_eq rfl
  exact spawned.trans (.emit_start started.spawnAudio.1 starts calm)

theorem registered_emits {reported : World} {starts : List Effect} (emits : Emits opens starts [] w reported)
    (slot : reported.audio.displaced = w.audio.displaced) (stop : StopHandle) :
    Emits opens starts w.audio.displaced w (reported.setActiveAudio stop) := by
  have both := emits.trans (setActiveAudio_emits reported stop)
  rwa [slot, List.append_nil, List.nil_append] at both

theorem spawned_audio {started : World} (still : Still w started) (effect : Effect) :
    (started.spawnAudio.1.emit effect).audio =
      { w.audio with nextTask := w.audio.nextTask + 1 } := by
  rw [← still.audio]
  rfl

/-- A realtime receiver is aborted through the slot. -/
theorem steers_abortable {started : World} (still : Still w started) {effect : Effect}
    (starts : effect.starts = some w.audio.nextTask) (calm : effect.stops = none)
    (registers : effect.registers = true) :
    Steers scope w ((started.spawnAudio.1.emit effect).setActiveAudio (.abort w.audio.nextTask)) := by
  refine @Steers.of_displaced scope w _ [effect] ?_ ?_
  · apply registered_emits (spawned_emits still starts calm)
    rw [spawned_audio still]
    rfl
  · rw [setActiveAudio_audio, spawned_audio still]
    exact .realtime starts registers

/-- A buffered receiver takes commands from its connection and through the slot. -/
theorem steers_commandable (included : scope.ap2 = true) {started : World} (still : Still w started)
    {effect : Effect} (starts : effect.starts = some w.audio.nextTask) (calm : effect.stops = none)
    (registers : effect.registers = true) :
    Steers scope w (((started.spawnAudio.1.emit effect).mapConn fun conn =>
      { conn with playoutCmd := some w.audio.nextTask }).setActiveAudio
        (.command w.audio.nextTask)) := by
  have commanded : ((started.spawnAudio.1.emit effect).mapConn fun conn =>
      { conn with playoutCmd := some w.audio.nextTask }).audio =
      { w.audio with
        playoutCmd := some w.audio.nextTask, nextTask := w.audio.nextTask + 1 } := by
    rw [← still.audio]
    rfl
  refine @Steers.of_displaced scope w _ [effect] ?_ ?_
  · apply registered_emits
    · exact (spawned_emits still starts calm).then_eq rfl
    · rw [commanded]
      rfl
  · rw [setActiveAudio_audio, commanded]
    exact .buffered included starts registers

theorem steers_realtimeKeyed (stream resp : Dictionary) (shk : List UInt8) :
    Steers scope w (realtimeKeyed config w stream resp shk).1 := by
  have bound : Still w w.bind.1 := (Still.refl w).bind
  have number : w.bind.1.spawnAudio.2 = w.audio.nextTask :=
    congrArg AudioHandles.nextTask bound.audio
  unfold realtimeKeyed
  dsimp only
  rw [number]
  split
  · exact .of_still bound
  · exact steers_abortable bound rfl rfl rfl

theorem steers_realtimeLegacy (releases : scope.releases) (stream resp : Dictionary) :
    Steers scope w (realtimeLegacy w stream resp).1 := by
  have fresh := shutdownTx_new "96 AppleLossless".toList
    (some ("96 " ++ toString (stream.unsigned "spf" 352) ++ " 0 16 40 10 14 2 255 0 0 " ++
      toString (stream.unsigned "sr" 44100)).toList)
    (some ⟨w.conn.ekey.getD (List.replicate 16 0), w.conn.eiv.getD (List.replicate 16 0)⟩)
  unfold realtimeLegacy
  dsimp only
  -- whether the session can be made does not matter, and is not computed
  generalize RaopRtp.new _ _ _ = raopRtp at fresh ⊢
  cases raopRtp with
  | none => exact steers_replace releases fresh
  | some rtp =>
    have starts := starts_replaced w fresh true
    dsimp only
    split
    · exact starts.steers releases
    · exact starts.steers_emit releases ‹_› rfl rfl rfl

theorem steers_setupStreamBuffered (included : scope.ap2 = true) (stream resp : Dictionary) :
    Steers scope w (setupStreamBuffered config w stream resp).1 := by
  have bound : Still w w.bind.1 := (Still.refl w).bind
  have number : w.bind.1.spawnAudio.2 = w.audio.nextTask :=
    congrArg AudioHandles.nextTask bound.audio
  unfold setupStreamBuffered
  split
  · exact .of_still ((Still.refl w).emit ⟨rfl, rfl, rfl⟩)
  · dsimp only
    rw [number]
    split
    · exact .of_still bound
    · exact steers_commandable included bound rfl rfl rfl

theorem steers_setupStream (included : scope.ap2 = true) {type : Nat} {stream : Dictionary}
    (replaces : config.features.video = true → type = 96 →
      ((Dictionary.get stream "shk").bind Plist.asData).bind streamSharedKey = none →
      scope.releases) (resp : Dictionary) :
    Steers scope w (setupStream env config w type stream resp).1 := by
  unfold setupStream
  split
  · rename_i realtime
    unfold setupStreamRealtime
    split
    · exact steers_realtimeKeyed _ _ _
    · rename_i unkeyed
      split
      · exact steers_realtimeLegacy (replaces ‹_› realtime unkeyed) _ _
      · exact .of_still ((Still.refl w).emit ⟨rfl, rfl, rfl⟩)
  · split
    · exact steers_setupStreamBuffered included _ _
    · split
      · exact .of_still (still_setupStreamRc _ _)
      · split
        · exact .of_still (still_setupStreamVideo _ _)
        · exact .of_still (.refl w)

theorem steers_setupInitial {dict : Dictionary}
    (opened : OpensTiming env config w dict → scope.opensTiming) :
    Steers scope w (setupInitial env config w dict).1 := by
  rcases @setupInitial_still_or env config w dict with
    still | ⟨opens, w', remotePort, still, emitted⟩
  · exact .of_still still
  · rw [emitted]
    exact .of_idle still.audio (still.emits.trans (.emit_timing w' remotePort (opened opens)))

/-- A SETUP without streams that opens a timing socket. -/
def SetupOpensTiming (env : Platform) (config : RaopConfig) (w : World) (request : Request) :
    Prop :=
  ∃ dict ∈ (requestPlist env request).bind Plist.asDictionary,
    (Dictionary.get dict "streams").bind Plist.asArray = none ∧ OpensTiming env config w dict

theorem steers_handleSetup (included : scope.ap2 = true)
    (replaces : config.features.video = true → (legacyStream env request).isSome = true →
      scope.releases)
    (opened : SetupOpensTiming env config w request → scope.opensTiming) :
    Steers scope w (handleSetup env config w request response).world := by
  apply handleSetup_world_of fun _ => .of_still (.refl w)
  · intro dict streams read found
    unfold setupStreams
    split
    · exact .of_still (.refl w)
    · rename_i stream first
      split
      · exact .of_still (.refl w)
      · rename_i type named
        have one : Steers scope w
            (setupStream env config w type stream [("type", .integer type)]).1 := by
          refine steers_setupStream included ?_ _
          rintro video rfl unkeyed
          apply replaces video
          rw [legacyStream_eq_some.mpr ⟨dict, streams, read, found, first, named, unkeyed⟩]
          rfl
        dsimp only
        split
        · exact one
        · exact one.then_still (Still.refl _).bind
  · intro dict read none
    exact steers_setupInitial fun opens => opened ⟨dict, read, none, opens⟩

/-- The handler lets go of the RTP session, if there is one. -/
def Endpoint.releases (env : Platform) (config : RaopConfig) (w : World) (request : Request) :
    Endpoint → Bool
  | .announce => announcesSession env w request
  | .setup => config.features.video && (legacyStream env request).isSome
  | .setupAp1 => (request.header "Transport").isSome
  | .teardown => true
  | _ => false

/-- What a request may do to sessions and timing sockets. -/
def requestScope (env : Platform) (config : RaopConfig) (w : World) (request : Request) :
    Scope where
  ap2 := config.features.ap2
  releases := ∃ endpoint ∈ handledBy env config w.conn request,
    endpoint.releases env config w request = true
  opensTiming := handledBy env config w.conn request = some .setup ∧
    SetupOpensTiming env config w request

instance : Decidable (requestScope env config w request).releases :=
  inferInstanceAs (Decidable (∃ endpoint ∈ _, _))

instance : Decidable (requestScope env config w request).opensTiming :=
  inferInstanceAs (Decidable (_ ∧ ∃ dict ∈ _, _ ∧ _ ∧ _))

/-- Whatever handler a request reaches, it does one of the steps. -/
theorem steers_handler {setup : Option SetupSession} {verify : Option VerifySession}
    (tracks : Tracks env config w.conn.srpServer setup)
    (tracksVerify : TracksVerify env w.conn.pairVerify verify) {endpoint : Endpoint}
    (reached : handledBy env config w.conn request = some endpoint)
    (included : endpoint = .setup → config.features.ap2 = true) :
    Steers (requestScope env config w request) w
      (endpoint.handler env config w request response).world := by
  have releases (does : endpoint.releases env config w request = true) :
      (requestScope env config w request).releases := ⟨endpoint, reached, does⟩
  cases steering : endpoint.steers with
  | true =>
    cases endpoint with
    | announce => exact steers_handleAnnounce releases
    | setup =>
      exact steers_handleSetup (included rfl)
        (fun video legacy => releases (Bool.and_eq_true_iff.mpr ⟨video, legacy⟩))
        (fun opened => ⟨reached, opened⟩)
    | setupAp1 => exact steers_handleSetupAp1 releases
    | teardown => exact steers_handleTeardown rfl (releases rfl) request
    | _ => cases steering
  | false =>
    cases pairing : endpoint.pairs with
    | false => exact .of_still (still_handler pairing steering)
    | true =>
      cases endpoint with
      | pairSetup =>
        have outcome : SetupOutcome env config setup request w
            (handlePairSetup env config w request response).world :=
          handlePairSetup_outcome tracks
        exact .of_idle outcome.audio (.of_inert outcome.effects)
      | pairVerify =>
        have outcome : VerifyOutcome env config verify request w
            (handlePairVerify env config w request response).world :=
          handlePairVerify_outcome tracksVerify
        exact .of_idle outcome.audio (.of_inert outcome.effects)
      | _ => cases pairing

end Shairplay.Raop
