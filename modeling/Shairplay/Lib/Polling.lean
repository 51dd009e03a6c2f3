import Shairplay.Lib.Machine

/-!
# Tasks that poll for a request

A task looks into a slot at the top of its loop, serves the request that it finds there, and
then waits for an event. Others store into the slot at any time, also while the task waits.

The slot is looked into before the second event after a request at the latest: only the event that
the task was waiting for may come first. Whole iterations, each of which serves and then handles an
event, are enough to describe what such a task puts out.
-/

namespace Shairplay.Lib.Polling

open Machine

/-- The parts of a task. -/
structure Task (τ ρ ι ε : Type*) where
  slot : τ → ρ
  store : τ → ρ → τ
  serve : τ → τ × List ε
  handle : τ → ι → τ × List ε
  ended : τ → Bool
  slot_store : ∀ t r, slot (store t r) = r
  store_slot : ∀ t, store t (slot t) = t
  store_store : ∀ t r s, store (store t r) s = store t s
  handle_store : ∀ t r e, handle (store t r) e = (store (handle t e).1 r, (handle t e).2)

/-- A task at the top of its loop, or waiting for an event. -/
structure Loop (τ : Type*) where
  task : τ
  waiting : Bool

/-- What a schedule may do next. -/
inductive Input (ρ ι : Type*)
  | store (r : ρ)
  | poll
  | event (e : ι)

inductive Event (ρ ι ε : Type*)
  | stored (r : ρ)
  | received (e : ι)
  | output (o : ε)
  deriving DecidableEq

variable {τ ρ ι ε : Type*}

namespace Task

variable (T : Task τ ρ ι ε)

/-- One step of a schedule; a step that the task is not ready for does nothing. -/
def step (l : Loop τ) : Input ρ ι → Loop τ × List (Event ρ ι ε)
  | .store r => ({ l with task := T.store l.task r }, [.stored r])
  | .poll =>
    if l.waiting || T.ended l.task then (l, [])
    else
      ({ task := (T.serve l.task).1, waiting := true }, (T.serve l.task).2.map .output)
  | .event e =>
    if !l.waiting || T.ended l.task then (l, [])
    else
      ({ task := (T.handle l.task e).1, waiting := false },
        .received e :: (T.handle l.task e).2.map .output)

/-- What stores, serving and the handling of the event keep is kept by a step. -/
theorem step_keeps {P : τ → Prop} {l : Loop τ} {i : Input ρ ι} (h : P l.task)
    (store : ∀ t r, P t → P (T.store t r)) (serve : ∀ t, P t → P (T.serve t).1)
    (handle : ∀ e, i = .event e → P (T.handle l.task e).1) : P (T.step l i).1.task := by
  cases i with
  | store r => exact store _ r h
  | poll =>
    rw [step]
    split
    · exact h
    · exact serve _ h
  | event e =>
    rw [step]
    split
    · exact h
    · exact handle e rfl

theorem slot_handle (t : τ) (e : ι) : T.slot (T.handle t e).1 = T.slot t := by
  have stored := congrArg Prod.fst (T.handle_store t (T.slot t) e)
  rw [T.store_slot] at stored
  rw [stored, T.slot_store]

end Task

/-- What the slot holds after some inputs, from what it held before. -/
def lastStored (r : ρ) : List (Input ρ ι) → ρ
  | [] => r
  | .store s :: inputs => lastStored s inputs
  | .poll :: inputs => lastStored r inputs
  | .event _ :: inputs => lastStored r inputs

theorem lastStored_ne {idle r : ρ} {inputs : List (Input ρ ι)} (request : r ≠ idle)
    (kept : .store idle ∉ inputs) : lastStored r inputs ≠ idle := by
  induction inputs generalizing r with
  | nil => exact request
  | cons i inputs ih =>
    rw [List.mem_cons, not_or] at kept
    cases i with
    | store s =>
      refine ih (r := s) ?_ kept.2
      rintro rfl
      exact kept.1 rfl
    | poll => exact ih request kept.2
    | event e => exact ih request kept.2

def receivedCount : List (Event ρ ι ε) → Nat
  | [] => 0
  | .received _ :: log => receivedCount log + 1
  | .stored _ :: log => receivedCount log
  | .output _ :: log => receivedCount log

@[simp] theorem receivedCount_outputs (os : List ε) (log : List (Event ρ ι ε)) :
    receivedCount (os.map .output ++ log) = receivedCount log := by
  induction os with
  | nil => rfl
  | cons o os ih => exact ih

namespace Task

variable (T : Task τ ρ ι ε) {l : Loop τ} {i : Input ρ ι} {inputs : List (Input ρ ι)}

/-- The slot is looked into in the course of a schedule. It then holds what was stored last, and no
event has been received but the one that the task may have been waiting for. -/
def Polls (l : Loop τ) (inputs : List (Input ρ ι)) : Prop :=
  ∃ before after, inputs = before ++ .poll :: after ∧
    receivedCount (run T.step l before).2 ≤ l.waiting.toNat ∧
    (run T.step l before).1.waiting = false ∧ T.ended (run T.step l before).1.task = false ∧
    T.slot (run T.step l before).1.task = lastStored (T.slot l.task) before

variable {T}

/-- A step that does nothing is passed over. -/
theorem Polls.skip (polls : T.Polls l inputs) (same : T.step l i = (l, []))
    (stays : ∀ before, lastStored (T.slot l.task) (i :: before) =
      lastStored (T.slot l.task) before) : T.Polls l (i :: inputs) := by
  obtain ⟨before, after, rfl, few, top, live, found⟩ := polls
  refine ⟨i :: before, after, rfl, ?_⟩
  rw [run_cons, same, stays]
  exact ⟨few, top, live, found⟩

theorem Polls.store {r : ρ} (polls : T.Polls { l with task := T.store l.task r } inputs) :
    T.Polls l (.store r :: inputs) := by
  obtain ⟨before, after, rfl, few, top, live, found⟩ := polls
  refine ⟨.store r :: before, after, rfl, few, top, live, ?_⟩
  rw [T.slot_store] at found
  exact found

/-- After its event the task is at the top of its loop, where no event may come first. -/
theorem Polls.event {e : ι} (waits : l.waiting = true)
    (handled : T.step l (.event e) =
      (⟨(T.handle l.task e).1, false⟩, .received e :: (T.handle l.task e).2.map .output))
    (polls : T.Polls ⟨(T.handle l.task e).1, false⟩ inputs) : T.Polls l (.event e :: inputs) := by
  obtain ⟨before, after, rfl, none, top, live, found⟩ := polls
  refine ⟨.event e :: before, after, rfl, ?_⟩
  rw [run_cons, handled, waits]
  refine ⟨?_, top, live, found.trans (congrArg (lastStored · before) ?_)⟩
  · simpa [receivedCount] using none
  · exact T.slot_handle l.task e

/-- On every schedule, from every state, the slot is looked into before a second event. -/
theorem polls_of_received (second : l.waiting.toNat < receivedCount (run T.step l inputs).2) :
    T.Polls l inputs := by
  induction inputs generalizing l with
  | nil => exact absurd second (Nat.not_lt_zero _)
  | cons i inputs ih =>
    have skips (same : T.step l i = (l, [])) : T.Polls l inputs := by
      rw [run_cons, same] at second
      exact ih second
    cases i with
    | store r => exact (ih (l := { l with task := T.store l.task r }) second).store
    | poll =>
      by_cases idle : (l.waiting || T.ended l.task) = true
      · exact (skips (if_pos idle)).skip (if_pos idle) fun _ => rfl
      · rw [Bool.not_eq_true, Bool.or_eq_false_iff] at idle
        exact ⟨[], inputs, rfl, Nat.zero_le _, idle.1, idle.2, rfl⟩
    | event e =>
      by_cases idle : (!l.waiting || T.ended l.task) = true
      · exact (skips (if_pos idle)).skip (if_pos idle) fun _ => rfl
      · have handled : T.step l (.event e) = (⟨(T.handle l.task e).1, false⟩,
            .received e :: (T.handle l.task e).2.map .output) := if_neg idle
        have waits : l.waiting = true := by
          cases waits : l.waiting with
          | false => simp [waits] at idle
          | true => rfl
        refine Polls.event waits handled (ih ?_)
        rw [run_cons, handled, waits] at second
        simpa [receivedCount] using second

end Task

/-- A store, or an iteration with the event that it waits for. -/
inductive Turn (ρ ι : Type*)
  | store (r : ρ)
  | iteration (e : ι)

namespace Task

variable (T : Task τ ρ ι ε)

/-- An iteration serves what the slot holds and handles its event. -/
def turn (t : τ) : Turn ρ ι → τ × List ε
  | .store r => (T.store t r, [])
  | .iteration e =>
    if T.ended t then (t, [])
    else
      ((T.handle (T.serve t).1 e).1, (T.serve t).2 ++ (T.handle (T.serve t).1 e).2)

end Task

def Event.output? : Event ρ ι ε → Option ε
  | .output o => some o
  | _ => none

/-- What was put out, in order. -/
def outputs (log : List (Event ρ ι ε)) : List ε := log.filterMap Event.output?

theorem outputs_append (log more : List (Event ρ ι ε)) :
    outputs (log ++ more) = outputs log ++ outputs more :=
  List.filterMap_append

theorem outputs_map (os : List ε) : outputs (os.map (.output : ε → Event ρ ι ε)) = os := by
  rw [outputs, List.filterMap_map]
  exact List.filterMap_some

/-- A schedule so far, as whole iterations. While the task waits, its iteration is yet to come,
and what has been stored since is stored after it. -/
inductive Iterates (T : Task τ ρ ι ε) (t : τ) : Loop τ → List (Event ρ ι ε) → Prop
  | top {log : List (Event ρ ι ε)} (turns : List (Turn ρ ι)) :
      outputs log = (run T.turn t turns).2 →
      Iterates T t ⟨(run T.turn t turns).1, false⟩ log
  | waits {log : List (Event ρ ι ε)} (turns : List (Turn ρ ι)) (r : ρ) :
      T.ended (run T.turn t turns).1 = false →
      outputs log = (run T.turn t turns).2 ++ (T.serve (run T.turn t turns).1).2 →
      Iterates T t ⟨T.store (T.serve (run T.turn t turns).1).1 r, true⟩ log

namespace Iterates

variable {T : Task τ ρ ι ε} {t : τ} {l : Loop τ} {log : List (Event ρ ι ε)}

/-- The same state and the same outputs, with a log that has gone on. -/
theorem congr (h : Iterates T t l log) {log' : List (Event ρ ι ε)}
    (same : outputs log' = outputs log) : Iterates T t l log' := by
  cases h with
  | top turns out => exact .top turns (same.trans out)
  | waits turns r live out => exact .waits turns r live (same.trans out)

/-- A run that has gone on to the top of the loop. -/
theorem of_run {turns : List (Turn ρ ι)} {u : τ} {out : List ε}
    (ran : run T.turn t turns = (u, out)) (same : outputs log = out) :
    Iterates T t ⟨u, false⟩ log := by
  have state : (run T.turn t turns).1 = u := congrArg Prod.fst ran
  rw [← state]
  exact .top turns (same.trans (congrArg Prod.snd ran).symm)

theorem store (h : Iterates T t l log) (r : ρ) :
    Iterates T t { l with task := T.store l.task r } log := by
  cases h with
  | top turns out =>
    have next : run T.turn t (turns ++ [.store r]) =
        (T.store (run T.turn t turns).1 r, (run T.turn t turns).2 ++ []) := by
      rw [run_append]
      rfl
    exact of_run next (out.trans (List.append_nil _).symm)
  | waits turns s live out =>
    rw [T.store_store]
    exact .waits turns r live out

/-- The event completes the iteration, and the requests stored meanwhile come after it. -/
theorem handle {turns : List (Turn ρ ι)} (live : T.ended (run T.turn t turns).1 = false)
    (out : outputs log = (run T.turn t turns).2 ++ (T.serve (run T.turn t turns).1).2) (r : ρ)
    (e : ι) :
    Iterates T t ⟨(T.handle (T.store (T.serve (run T.turn t turns).1).1 r) e).1, false⟩
      (log ++ .received e ::
        (T.handle (T.store (T.serve (run T.turn t turns).1).1 r) e).2.map .output) := by
  rw [T.handle_store]
  have next : run T.turn t (turns ++ [.iteration e, .store r]) =
      (T.store (T.handle (T.serve (run T.turn t turns).1).1 e).1 r,
        (run T.turn t turns).2 ++ ((T.serve (run T.turn t turns).1).2 ++
          (T.handle (T.serve (run T.turn t turns).1).1 e).2)) := by
    simp [run_append, Task.turn, live]
  apply of_run next
  rw [outputs_append, out, List.append_assoc]
  congr 2
  exact outputs_map _

theorem step (h : Iterates T t l log) (i : Input ρ ι) :
    Iterates T t (T.step l i).1 (log ++ (T.step l i).2) := by
  cases i with
  | store r =>
    apply (h.store r).congr
    rw [Task.step, outputs_append]
    exact List.append_nil _
  | poll =>
    rw [Task.step]
    split
    · rw [List.append_nil]
      exact h
    · rename_i ready
      rw [Bool.or_eq_true, not_or, Bool.not_eq_true, Bool.not_eq_true] at ready
      cases h with
      | top turns out =>
        rw [← T.store_slot (T.serve _).1]
        apply waits turns _ ready.2
        rw [outputs_append, out, outputs_map]
      | waits => cases ready.1
  | event e =>
    rw [Task.step]
    split
    · rw [List.append_nil]
      exact h
    · rename_i ready
      cases h with
      | top => simp at ready
      | waits turns r live out => exact handle live out r e

end Iterates

/-- Every schedule puts out what a run of whole iterations puts out. -/
theorem iterates_run (T : Task τ ρ ι ε) (t : τ) (inputs : List (Input ρ ι)) :
    Iterates T t (run T.step ⟨t, false⟩ inputs).1 (run T.step ⟨t, false⟩ inputs).2 := by
  have start : Iterates T t ⟨t, false⟩ [] := .top [] rfl
  exact run_history (fun _ _ i h => h.step i) start inputs

end Shairplay.Lib.Polling
