import Shairplay.Raop.Handlers.Tasks

/-!
# Who can stop which receiver

The ledger of a server: the handles of every connection, the slot they share, and what has been
started and told to stop so far. A receiver that was started and not told to stop can be reached
through a handle: the slot, or the shutdown channel or the command sender of its own connection.
Receivers have numbers of their own, so no handle stops a receiver twice.
-/

namespace Shairplay.Raop

def StopHandle.task : StopHandle → Nat
  | .abort task | .command task => task

/-- The receiver that is stopped from the slot for the active audio. -/
def Effect.displaces : Effect → Option Nat
  | .audioAborted task => some task
  | .playoutCommand task .stop => some task
  | _ => none

@[ext] structure Ledger where
  shutdown : Nat → Option Nat
  command : Nat → Option Nat
  active : Option StopHandle
  next : Nat
  /-- Which connection started which receiver. -/
  started : Nat → Nat → Prop
  told : Nat → Prop
  /-- The receivers that were stopped because another one was registered, in order. -/
  displaced : List Nat

namespace Ledger

/-- The handles that a request of a connection works on. -/
structure At (l : Ledger) (id : Nat) (h : AudioHandles) : Prop where
  shutdown : h.shutdown = l.shutdown id
  command : h.playoutCmd = l.command id
  active : h.activeAudio = l.active
  next : h.nextTask = l.next

def after (l : Ledger) (id : Nat) (starts stops : List Effect) (h : AudioHandles) : Ledger where
  shutdown := fun i => if i = id then h.shutdown else l.shutdown i
  command := fun i => if i = id then h.playoutCmd else l.command i
  active := h.activeAudio
  next := h.nextTask
  started := fun i task => l.started i task ∨ i = id ∧ task ∈ starts.filterMap Effect.starts
  told := fun task => l.told task ∨ task ∈ stops.filterMap Effect.stops
  displaced := l.displaced ++ if starts = [] then [] else stops.filterMap Effect.displaces

/-- Every number in use was given out. -/
structure Bounded (l : Ledger) : Prop where
  started : ∀ i task, l.started i task → task < l.next
  told : ∀ task, l.told task → task < l.next
  shutdown : ∀ i task, l.shutdown i = some task → task < l.next
  command : ∀ i task, l.command i = some task → task < l.next
  active : ∀ task, l.active.map StopHandle.task = some task → task < l.next
  displaced : ∀ task ∈ l.displaced, task < l.next

/-- No receiver has handles in two places, except for a buffered one that is registered. -/
structure Apart (l : Ledger) : Prop where
  shutdown : ∀ i j task, l.shutdown i = some task → l.shutdown j = some task → i = j
  command : ∀ i j task, l.shutdown i = some task → l.command j ≠ some task
  active : ∀ i task, l.shutdown i = some task → l.active.map StopHandle.task ≠ some task
  abort : ∀ i task, l.active = some (.abort task) → l.command i ≠ some task
  displaced : ∀ task, l.active.map StopHandle.task = some task → task ∉ l.displaced

/-- What is held and what was told to stop. -/
structure Custody (ap2 : Bool) (l : Ledger) : Prop where
  bounded : Bounded l
  apart : Apart l
  held : ∀ i task, l.started i task → ¬l.told task →
    l.active = some (.abort task) ∨ l.shutdown i = some task ∨
      l.command i = some task ∧ l.active = some (.command task)
  running : ∀ i task, l.shutdown i = some task → ¬l.told task
  aborting : ∀ task, l.active = some (.abort task) → ¬l.told task
  commanding : ∀ i task, l.command i = some task → ap2 = true
  displaced : l.displaced.Nodup

@[grind =] theorem stops_shutdowns (h : AudioHandles) :
    h.shutdowns.filterMap Effect.stops = h.shutdown.toList := by
  cases held : h.shutdown <;> simp [AudioHandles.shutdowns, held, Effect.stops]

@[grind =] theorem displaces_shutdowns (h : AudioHandles) :
    h.shutdowns.filterMap Effect.displaces = [] := by
  cases held : h.shutdown <;> simp [AudioHandles.shutdowns, held, Effect.displaces]

@[grind =] theorem stops_displaced (h : AudioHandles) :
    h.displaced.filterMap Effect.stops = (h.activeAudio.map StopHandle.task).toList := by
  cases held : h.activeAudio with
  | none => simp [AudioHandles.displaced, held]
  | some stop =>
    cases stop <;>
      simp [AudioHandles.displaced, held, StopHandle.effect, Effect.stops, StopHandle.task]

@[grind =] theorem displaces_displaced (h : AudioHandles) :
    h.displaced.filterMap Effect.displaces = (h.activeAudio.map StopHandle.task).toList := by
  cases held : h.activeAudio with
  | none => simp [AudioHandles.displaced, held]
  | some stop =>
    cases stop <;>
      simp [AudioHandles.displaced, held, StopHandle.effect, Effect.displaces, StopHandle.task]

@[grind =] theorem stops_commanded (commanded : Option Nat) :
    (commanded.toList.map (Effect.playoutCommand · .stop)).filterMap Effect.stops =
      commanded.toList := by
  cases commanded <;> simp [Effect.stops]

variable {ap2 : Bool} {l : Ledger} {id : Nat} {h h' : AudioHandles} {starts stops : List Effect}

/-- A request takes at most the next number, and gives it to what it starts or opens. -/
theorem Bounded.after (bounded : Bounded l) (here : l.At id h)
    (step : AudioStep ap2 h starts stops h') : Bounded (l.after id starts stops h') := by
  obtain ⟨started, told, shutdown, command, active, displaced⟩ := bounded
  obtain ⟨hs, hc, ha, hn⟩ := here
  cases step <;> constructor <;> simp only [Ledger.after] <;>
    grind [StopHandle.task, AudioHandles.shutdown]

/-- A new handle has a new number, so it is apart from every other one. -/
theorem Apart.after (apart : Apart l) (bounded : Bounded l) (here : l.At id h)
    (step : AudioStep ap2 h starts stops h') : Apart (l.after id starts stops h') := by
  obtain ⟨started, told, shutdown, command, active, displaced⟩ := bounded
  obtain ⟨shutdown', command', active', abort', displaced'⟩ := apart
  obtain ⟨hs, hc, ha, hn⟩ := here
  cases step <;> constructor <;> simp only [Ledger.after] <;>
    grind [StopHandle.task, AudioHandles.shutdown]

/-- A handle that is lost has been used: what it held is told to stop in the same request. -/
theorem Custody.held_after (custody : Custody ap2 l) (here : l.At id h)
    (step : AudioStep ap2 h starts stops h') {i task : Nat}
    (started : (l.after id starts stops h').started i task)
    (untold : ¬(l.after id starts stops h').told task) :
    (l.after id starts stops h').active = some (.abort task) ∨
      (l.after id starts stops h').shutdown i = some task ∨
      (l.after id starts stops h').command i = some task ∧
        (l.after id starts stops h').active = some (.command task) := by
  have before : l.started i task → l.active = some (.abort task) ∨ l.shutdown i = some task ∨
      l.command i = some task ∧ l.active = some (.command task) := by
    intro earlier
    exact custody.held i task earlier fun told => untold (.inl told)
  obtain ⟨hs, hc, ha, hn⟩ := here
  simp only [Ledger.after] at started untold ⊢
  cases step with
  | idle => grind
  -- the shutdown channel of this connection is let go
  | replaced fresh => grind [AudioHandles.shutdown]
  | failed channel => grind [AudioHandles.shutdown]
  | teardown => grind [AudioHandles.shutdown]
  | launched channel numbered unregistered =>
    rcases started with earlier | ⟨rfl, new⟩
    · grind [AudioHandles.shutdown]
    · have is : task = h.nextTask := by simpa [numbered] using new
      rw [is]
      exact .inr (.inl (by rw [if_pos rfl]; exact channel))
  -- the slot is taken, and what was in it is stopped
  | realtime numbered registered =>
    rcases started with earlier | ⟨rfl, new⟩
    · grind [AudioHandles.shutdown, StopHandle.task]
    · have is : task = h.nextTask := by simpa [numbered] using new
      rw [is]
      exact .inl rfl
  | buffered included numbered registered =>
    rcases started with earlier | ⟨rfl, new⟩
    · grind [AudioHandles.shutdown, StopHandle.task]
    · have is : task = h.nextTask := by simpa [numbered] using new
      rw [is]
      exact .inr (.inr ⟨by rw [if_pos rfl], rfl⟩)

/-- Handles that are kept are those that were not used. -/
theorem Custody.after (custody : Custody ap2 l) (here : l.At id h)
    (step : AudioStep ap2 h starts stops h') : Custody ap2 (l.after id starts stops h') := by
  have bounded := custody.bounded.after here step
  have apart := custody.apart.after custody.bounded here step
  refine ⟨bounded, apart, fun i task => custody.held_after here step, ?_, ?_, ?_, ?_⟩
  all_goals
    obtain ⟨⟨-, told, shutdown, -, active, displaced⟩, apart, -, running, aborting, commanding,
      nodup⟩ := custody
    obtain ⟨shutdown', command', active', abort', displaced'⟩ := apart
    obtain ⟨hs, hc, ha, hn⟩ := here
    cases step <;> simp only [Ledger.after] <;> grind [StopHandle.task, AudioHandles.shutdown]

/-- TEARDOWN tells every receiver of its connection to stop, unless one of them is a realtime
receiver in the slot. -/
theorem Custody.teardown_iff (custody : Custody ap2 l) (here : l.At id h) :
    (∀ task, l.started id task → (l.after id []
        (h.shutdowns ++ (if ap2 then h.playoutCmd else none).toList.map (.playoutCommand · .stop))
        { h with raopRtp := none }).told task) ↔
      ∀ task, l.active = some (.abort task) → ¬l.started id task := by
  have told (task : Nat) : (l.after id []
      (h.shutdowns ++ (if ap2 then h.playoutCmd else none).toList.map (.playoutCommand · .stop))
      { h with raopRtp := none }).told task ↔
      l.told task ∨ l.shutdown id = some task ∨ l.command id = some task := by
    have sent : (if ap2 then h.playoutCmd else none) = l.command id := by
      rw [here.command]
      cases commanded : l.command id with
      | none => exact ite_self _
      | some task => rw [if_pos (custody.commanding id task commanded)]
    simp only [Ledger.after, sent, List.filterMap_append, stops_shutdowns, stops_commanded,
      here.shutdown, List.mem_append, Option.mem_toList]
  simp only [told]
  constructor
  · intro all task aborted started
    rcases all task started with earlier | held | commanded
    · exact custody.aborting task aborted earlier
    · exact custody.apart.active id task held (by rw [aborted]; rfl)
    · exact custody.apart.abort id task aborted commanded
  · intro others task started
    by_contra untold
    rw [not_or, not_or] at untold
    rcases custody.held id task started untold.1 with aborted | held | ⟨commanded, -⟩
    · exact others task aborted started
    · exact untold.2.1 held
    · exact untold.2.2 commanded

/-- No receiver of an RTP session is running, or only one of this connection. -/
def RtpSilent (l : Ledger) (except : Option Nat) : Prop :=
  ∀ i task, some i ≠ except → l.shutdown i = some task → ¬l.started i task

/-- The receiver in the slot has been told to stop. -/
def SlotDone (l : Ledger) : Prop :=
  ∀ i task, l.active.map StopHandle.task = some task → l.started i task → l.told task

/-- A registered receiver is the only one left, just when no RTP session was running. -/
theorem Custody.registered_iff (custody : Custody ap2 l) (here : l.At id h)
    {starts : List Effect} {h' : AudioHandles} :
    (∀ i task, l.started i task → (l.after id starts h.displaced h').told task) ↔
      l.RtpSilent none := by
  have told (task : Nat) : (l.after id starts h.displaced h').told task ↔
      l.told task ∨ l.active.map StopHandle.task = some task := by
    simp only [Ledger.after, stops_displaced, here.active, Option.mem_toList]
  simp only [told]
  constructor
  · intro all i task _ held started
    rcases all i task started with earlier | active
    · exact custody.running i task held earlier
    · exact custody.apart.active i task held active
  · intro silent i task started
    by_contra untold
    rw [not_or] at untold
    rcases custody.held i task started untold.1 with aborted | held | ⟨-, active⟩
    · exact untold.2 (by rw [aborted]; rfl)
    · exact silent i task (Option.some_ne_none i) held started
    · exact untold.2 (by rw [active]; rfl)

/-- The receiver of an RTP session is the only one left, just when no other connection has one
and the slot is done. -/
theorem Custody.launched_iff (custody : Custody ap2 l) (here : l.At id h)
    {starts : List Effect} {h' : AudioHandles} :
    (∀ i task, l.started i task → (l.after id starts h.shutdowns h').told task) ↔
      l.RtpSilent (some id) ∧ l.SlotDone := by
  have told (task : Nat) : (l.after id starts h.shutdowns h').told task ↔
      l.told task ∨ l.shutdown id = some task := by
    simp only [Ledger.after, stops_shutdowns, here.shutdown, Option.mem_toList]
  simp only [told]
  constructor
  · intro all
    constructor
    · intro i task other held started
      rcases all i task started with earlier | mine
      · exact custody.running i task held earlier
      · exact other (congrArg some (custody.apart.shutdown i id task held mine))
    · intro i task active started
      rcases all i task started with earlier | mine
      · exact earlier
      · exact absurd active (custody.apart.active id task mine)
  · intro ⟨silent, done⟩ i task started
    by_contra untold
    rw [not_or] at untold
    rcases custody.held i task started untold.1 with aborted | held | ⟨-, active⟩
    · exact untold.1 (done i task (by rw [aborted]; rfl) started)
    · by_cases mine : i = id
      · exact untold.2 (mine ▸ held)
      · exact silent i task (fun same => mine (Option.some.inj same)) held started
    · exact untold.1 (done i task (by rw [active]; rfl) started)

/-- What must not be running when a receiver of this kind is started on a connection. -/
def Unobstructed (l : Ledger) (id : Nat) (start : Effect) : Prop :=
  if start.registers then l.RtpSilent none else l.RtpSilent (some id) ∧ l.SlotDone

/-- A start stops all earlier receivers just when nothing obstructs it. -/
theorem Custody.start_iff (custody : Custody ap2 l) (here : l.At id h) {starts stops : List Effect}
    {h' : AudioHandles} (audio : AudioStep ap2 h starts stops h') {start : Effect}
    (mem : start ∈ starts) :
    (∀ i task, l.started i task → (l.after id starts stops h').told task) ↔
      l.Unobstructed id start := by
  cases audio with
  | idle | replaced | failed | teardown => cases mem
  | launched channel numbered unregistered =>
    cases List.mem_singleton.mp mem
    rw [Unobstructed, if_neg (by simp [unregistered])]
    exact custody.launched_iff here
  | realtime numbered registered =>
    cases List.mem_singleton.mp mem
    rw [Unobstructed, if_pos registered]
    exact custody.registered_iff here
  | buffered included numbered registered =>
    cases List.mem_singleton.mp mem
    rw [Unobstructed, if_pos registered]
    exact custody.registered_iff here

end Ledger

end Shairplay.Raop
