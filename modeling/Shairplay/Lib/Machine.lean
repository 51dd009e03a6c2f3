import Mathlib.Data.List.Basic

/-!
# Deterministic machines with an event log

A machine reads one input at a time and appends the events of that step to a log.
Every safety statement about a run is obtained from one of two rules: an invariant
of the state that each step keeps, or a forward simulation by a relation between
machine states and specification states.
-/

namespace Shairplay.Lib.Machine

variable {σ ι ε τ : Type*}

/-- Run a machine over a list of inputs and collect the events in order. -/
def run (step : σ → ι → σ × List ε) : σ → List ι → σ × List ε
  | s, [] => (s, [])
  | s, i :: is => ((run step (step s i).1 is).1, (step s i).2 ++ (run step (step s i).1 is).2)

@[simp] theorem run_nil (step : σ → ι → σ × List ε) (s : σ) : run step s [] = (s, []) := rfl

@[simp] theorem run_cons (step : σ → ι → σ × List ε) (s : σ) (i : ι) (is : List ι) :
    run step s (i :: is) =
      ((run step (step s i).1 is).1, (step s i).2 ++ (run step (step s i).1 is).2) := rfl

theorem run_append (step : σ → ι → σ × List ε) (s : σ) (is js : List ι) :
    run step s (is ++ js) =
      ((run step (run step s is).1 js).1, (run step s is).2 ++ (run step (run step s is).1 js).2) := by
  induction is generalizing s with
  | nil => rfl
  | cons i is ih =>
    rw [List.cons_append, run_cons, ih, run_cons]
    exact Prod.ext rfl (List.append_assoc _ _ _).symm

variable {step : σ → ι → σ × List ε} {Q : σ → ι → Prop}

/-- A change of the state that the steps neither see nor touch may be made after the run. -/
theorem run_commutes {change : σ → σ} {is : List ι}
    (commutes : ∀ s, ∀ i ∈ is, step (change s) i = (change (step s i).1, (step s i).2)) (s : σ) :
    run step (change s) is = (change (run step s is).1, (run step s is).2) := by
  induction is generalizing s with
  | nil => rfl
  | cons i is ih =>
    have first := commutes s i List.mem_cons_self
    have rest := ih (fun t j mem => commutes t j (List.mem_cons_of_mem i mem)) (step s i).1
    rw [run_cons, first, rest, run_cons]

theorem run_ignores {s : σ} {is : List ι} (ignores : ∀ i ∈ is, step s i = (s, [])) :
    run step s is = (s, []) := by
  induction is with
  | nil => rfl
  | cons i is ih =>
    have first := ignores i List.mem_cons_self
    have rest := ih fun j mem => ignores j (List.mem_cons_of_mem i mem)
    rw [run_cons, first, rest]
    rfl

/-- What every step keeps, of the state together with the log so far, holds after every run. -/
theorem run_history {P : σ → List ε → Prop}
    (keeps : ∀ s log i, P s log → P (step s i).1 (log ++ (step s i).2)) {s : σ} {log : List ε}
    (start : P s log) (is : List ι) : P (run step s is).1 (log ++ (run step s is).2) := by
  induction is generalizing s log with
  | nil => simpa using start
  | cons i is ih => simpa using ih (keeps s log i start)

/-- What every step keeps of the state holds after every run. -/
theorem run_keeps {P : σ → Prop} (keeps : ∀ s i, P s → P (step s i).1) {s : σ} (start : P s)
    (is : List ι) : P (run step s is).1 := by
  induction is generalizing s with
  | nil => exact start
  | cons i is ih => exact ih (keeps s i start)

/-- A condition on state and input holds at every step of a run. -/
def Always (step : σ → ι → σ × List ε) (Q : σ → ι → Prop) : σ → List ι → Prop
  | _, [] => True
  | s, i :: is => Q s i ∧ Always step Q (step s i).1 is

theorem always_append {s : σ} {is js : List ι} :
    Always step Q s (is ++ js) ↔ Always step Q s is ∧ Always step Q (run step s is).1 js := by
  induction is generalizing s with
  | nil => exact ⟨fun always => ⟨trivial, always⟩, fun always => always.2⟩
  | cons i is ih =>
    constructor
    · intro always
      exact ⟨⟨always.1, (ih.mp always.2).1⟩, (ih.mp always.2).2⟩
    · intro always
      exact ⟨always.1.1, ih.mpr ⟨always.1.2, always.2⟩⟩

/-- An input that always meets the condition may be repeated. -/
theorem always_replicate {i : ι} (meets : ∀ s, Q s i) (k : Nat) (s : σ) :
    Always step Q s (List.replicate k i) := by
  induction k generalizing s with
  | zero => trivial
  | succ k ih => exact ⟨meets s, ih _⟩

/-- Under an invariant, one condition at every step gives another at every step. -/
theorem Always.imp {P : σ → List ε → Prop} {Q R : σ → ι → Prop}
    (keeps : ∀ s log i, P s log → P (step s i).1 (log ++ (step s i).2))
    (gives : ∀ s log i, P s log → Q s i → R s i) {s : σ} {log : List ε} (start : P s log)
    {is : List ι} (always : Always step Q s is) : Always step R s is := by
  induction is generalizing s log with
  | nil => trivial
  | cons i is ih => exact ⟨gives s log i start always.1, ih (keeps s log i start) always.2⟩

/-- An invariant that a step keeps under a condition, and what it gives there. -/
theorem Always.imp_of_keeps {P : σ → Prop} {Q R : σ → ι → Prop}
    (keeps : ∀ s i, P s → Q s i → P (step s i).1) (gives : ∀ s i, P s → Q s i → R s i) {s : σ}
    (start : P s) {is : List ι} (always : Always step Q s is) : Always step R s is := by
  induction is generalizing s with
  | nil => trivial
  | cons i is ih =>
    exact ⟨gives s i start always.1, ih (keeps s i start always.1) always.2⟩

/-- What each step keeps under a condition, of the state together with the log so far, holds
after a run in which every step meets the condition. -/
theorem Always.run_history {P : σ → List ε → Prop}
    (keeps : ∀ s log i, P s log → Q s i → P (step s i).1 (log ++ (step s i).2)) {s : σ}
    {log : List ε} (start : P s log) {is : List ι} (always : Always step Q s is) :
    P (run step s is).1 (log ++ (run step s is).2) := by
  induction is generalizing s log with
  | nil => simpa using start
  | cons i is ih => simpa using ih (keeps s log i start always.1) always.2

/-- What each step keeps under a condition holds after a run in which every step meets it. -/
theorem Always.run_keeps {P : σ → Prop} (keeps : ∀ s i, P s → Q s i → P (step s i).1) {s : σ}
    (start : P s) {is : List ι} (always : Always step Q s is) : P (run step s is).1 := by
  induction is generalizing s with
  | nil => exact start
  | cons i is ih => exact ih (keeps s i start always.1) always.2

/-- A condition on the inputs alone. -/
theorem always_of_forall {R : ι → Prop} {s : σ} {is : List ι} (each : ∀ i ∈ is, R i) :
    Always step (fun _ i => R i) s is := by
  induction is generalizing s with
  | nil => trivial
  | cons i is ih =>
    rw [List.forall_mem_cons] at each
    exact ⟨each.1, ih each.2⟩

/-- A condition on the inputs alone may be added. -/
theorem Always.and_mem {R : ι → Prop} {s : σ} {is : List ι} (always : Always step Q s is)
    (each : ∀ i ∈ is, R i) : Always step (fun s i => Q s i ∧ R i) s is := by
  induction is generalizing s with
  | nil => trivial
  | cons i is ih =>
    rw [List.forall_mem_cons] at each
    exact ⟨⟨always.1, each.1⟩, ih always.2 each.2⟩

instance decidableAlways (step : σ → ι → σ × List ε) (Q : σ → ι → Prop)
    [∀ s i, Decidable (Q s i)] : (s : σ) → (is : List ι) → Decidable (Always step Q s is)
  | _, [] => .isTrue trivial
  | s, i :: is =>
    have := decidableAlways step Q (step s i).1 is
    inferInstanceAs (Decidable (Q s i ∧ _))

/-- A specification given by its transition relation on single events. -/
inductive Accepts (next : τ → ε → τ → Prop) : τ → List ε → τ → Prop
  | nil {q : τ} : Accepts next q [] q
  | cons {q r t : τ} {e : ε} {es : List ε} :
      next q e r → Accepts next r es t → Accepts next q (e :: es) t

namespace Accepts

variable {next : τ → ε → τ → Prop}

theorem append {q r t : τ} {es fs : List ε} (first : Accepts next q es r)
    (second : Accepts next r fs t) : Accepts next q (es ++ fs) t := by
  induction first with
  | nil => exact second
  | cons step _ ih => exact .cons step (ih second)

/-- An accepted log may be cut at any point. -/
theorem split {q t : τ} {es fs : List ε} (h : Accepts next q (es ++ fs) t) :
    ∃ r, Accepts next q es r ∧ Accepts next r fs t := by
  induction es generalizing q with
  | nil => exact ⟨q, .nil, h⟩
  | cons e es ih =>
    cases h with
    | cons step rest =>
      obtain ⟨r, first, second⟩ := ih rest
      exact ⟨r, .cons step first, second⟩

/-- The state at a marked event, with the transition the event made. -/
theorem at_event {q t : τ} {before after : List ε} {e : ε}
    (h : Accepts next q (before ++ e :: after) t) :
    ∃ r u, Accepts next q before r ∧ next r e u ∧ Accepts next u after t := by
  obtain ⟨r, first, second⟩ := h.split
  cases second with
  | cons step rest => exact ⟨r, _, first, step, rest⟩

/-- A quantity read off the log and a quantity read off the state stay equal when
each transition updates them alike. -/
theorem invariant {P : List ε → τ → Prop}
    (keeps : ∀ es q e r, P es q → next q e r → P (es ++ [e]) r)
    {q t : τ} {es fs : List ε} (start : P es q) (h : Accepts next q fs t) : P (es ++ fs) t := by
  induction h generalizing es with
  | nil => simpa using start
  | cons step _ ih => simpa using ih (keeps _ _ _ _ start step)

end Accepts

/-- Forward simulation: a machine step is answered by specification transitions on
exactly its events, and the relation is restored. -/
theorem run_simulates {next : τ → ε → τ → Prop} {R : σ → τ → Prop}
    (answers : ∀ s q i, R s q → ∃ r, Accepts next q (step s i).2 r ∧ R (step s i).1 r)
    {s : σ} {q : τ} (start : R s q) (is : List ι) :
    ∃ r, Accepts next q (run step s is).2 r ∧ R (run step s is).1 r := by
  induction is generalizing s q with
  | nil => exact ⟨q, .nil, start⟩
  | cons i is ih =>
    obtain ⟨r, first, related⟩ := answers s q i start
    obtain ⟨t, rest, final⟩ := ih related
    exact ⟨t, first.append rest, final⟩

end Shairplay.Lib.Machine
