import Mathlib.Data.List.Chain
import Mathlib.Logic.Function.Basic
import Shairplay.Lib.Machine

/-!
# Ordered delivery of numbered frames

The abstract playout queue knows for each number at most one waiting frame, and
from the first delivery on it knows which number is due. Its log has three kinds of
events: a reset, the acceptance of a frame, the delivery of a frame.

`OrderedDelivery` states what a listener may rely on, about the log alone. It is
proved here once for every log the queue accepts; a concrete buffer then only has
to simulate the queue.
-/

namespace Shairplay.Lib.Playout

open Machine

variable {κ φ : Type*} [DecidableEq κ]

/-- One entry of the log. -/
inductive Event (κ φ : Type*)
  | reset
  | accept (key : κ) (frame : φ)
  | out (key : κ) (frame : φ)
  deriving DecidableEq

/-- Frames accepted under `key` since the last reset or the last delivery of `key`. -/
def acceptedSince (key : κ) (log : List (Event κ φ)) : List φ :=
  log.foldl (fun waiting e =>
    match e with
    | .reset => []
    | .accept k frame => if k = key then waiting ++ [frame] else waiting
    | .out k _ => if k = key then [] else waiting) []

def outKeys (log : List (Event κ φ)) : List κ :=
  log.filterMap fun e =>
    match e with
    | .out k _ => some k
    | _ => none

/-- What a log of deliveries promises. -/
structure OrderedDelivery (succ : κ → κ) (Silent : φ → Prop) (log : List (Event κ φ)) : Prop where
  /-- Without a reset in between, consecutive deliveries carry consecutive keys. -/
  consecutive : ∀ before piece after, log = before ++ piece ++ after →
    Event.reset ∉ piece → (outKeys piece).IsChain (fun a b => b = succ a)
  /-- A delivered frame is the only one accepted under its key, or is silent. -/
  frames : ∀ before key frame after, log = before ++ .out key frame :: after →
    acceptedSince key before = [frame] ∨ acceptedSince key before = [] ∧ Silent frame
  /-- No accepted frame is delivered twice: a second delivery of a key is silent or
  carries a frame that was accepted after the first one. -/
  once : ∀ before key frame between frame' after,
    log = before ++ .out key frame :: (between ++ .out key frame' :: after) →
    .accept key frame' ∈ between ∨ Silent frame'

/-- State of the abstract queue. -/
structure Queue (κ φ : Type*) where
  pending : κ → Option φ
  next : Option κ

namespace Queue

/-- Nothing waits and no key is due yet. -/
def empty : Queue κ φ := ⟨fun _ => none, none⟩

/-- The transitions of the abstract queue. -/
inductive Step (succ : κ → κ) (Silent : φ → Prop) : Queue κ φ → Event κ φ → Queue κ φ → Prop
  | reset {q : Queue κ φ} : Step succ Silent q .reset empty
  | accept {q : Queue κ φ} {key : κ} {frame : φ} (free : q.pending key = none) :
      Step succ Silent q (.accept key frame)
        { q with pending := Function.update q.pending key (some frame) }
  | out {q : Queue κ φ} {key : κ} {frame : φ} (due : ∀ k, q.next = some k → k = key)
      (carried : q.pending key = some frame ∨ q.pending key = none ∧ Silent frame) :
      Step succ Silent q (.out key frame)
        { pending := Function.update q.pending key none, next := some (succ key) }

end Queue

variable {succ : κ → κ} {Silent : φ → Prop}

@[simp] theorem acceptedSince_nil (key : κ) : acceptedSince key ([] : List (Event κ φ)) = [] := rfl

theorem acceptedSince_snoc (key : κ) (log : List (Event κ φ)) (e : Event κ φ) :
    acceptedSince key (log ++ [e]) =
      match e with
      | .reset => []
      | .accept k frame =>
        if k = key then acceptedSince key log ++ [frame] else acceptedSince key log
      | .out k _ => if k = key then [] else acceptedSince key log := by
  cases e <;> simp [acceptedSince]

/-- A delivery of `key` forgets everything accepted under it before. -/
theorem acceptedSince_out (key : κ) (before between : List (Event κ φ)) (frame : φ) :
    acceptedSince key (before ++ .out key frame :: between) = acceptedSince key between := by
  simp [acceptedSince, List.foldl_append, List.foldl_cons]

theorem accept_mem_of_acceptedSince {key : κ} {frame : φ} {log : List (Event κ φ)}
    (h : frame ∈ acceptedSince key log) : .accept key frame ∈ log := by
  induction log using List.reverseRecOn with
  | nil => simp at h
  | append_singleton log e ih =>
    rw [acceptedSince_snoc] at h
    rw [List.mem_append]
    cases e with
    | reset => simp at h
    | accept k f =>
      by_cases hk : k = key
      · simp only [hk, if_true, List.mem_append, List.mem_singleton] at h
        rcases h with earlier | rfl
        · exact .inl (ih earlier)
        · exact .inr (by simp [hk])
      · simp only [hk, if_false] at h
        exact .inl (ih h)
    | out k f =>
      by_cases hk : k = key
      · simp [hk] at h
      · simp only [hk, if_false] at h
        exact .inl (ih h)

/-- The queue holds exactly the frame accepted and not yet delivered. -/
theorem acceptedSince_eq_pending {q : Queue κ φ} {log : List (Event κ φ)}
    (h : Accepts (Queue.Step succ Silent) Queue.empty log q) (key : κ) :
    acceptedSince key log = (q.pending key).toList := by
  have start : acceptedSince key ([] : List (Event κ φ)) =
      ((Queue.empty : Queue κ φ).pending key).toList := rfl
  refine h.invariant (P := fun es q => acceptedSince key es = (q.pending key).toList) ?_ start
  intro es q e r ih step
  rw [acceptedSince_snoc]
  cases step with
  | reset => rfl
  | @accept k frame free =>
    by_cases hk : k = key
    · subst hk
      simp [ih, free]
    · simp [hk, ih, Function.update_of_ne (Ne.symm hk)]
  | @out k frame due carried =>
    by_cases hk : k = key
    · simp [hk]
    · simp [hk, ih, Function.update_of_ne (Ne.symm hk)]

/-- The deliveries of a piece without reset start with the key that is due. -/
theorem outKeys_chain {q r : Queue κ φ} {piece : List (Event κ φ)}
    (h : Accepts (Queue.Step succ Silent) q piece r) (clean : Event.reset ∉ piece) :
    (outKeys piece).IsChain (fun a b => b = succ a) ∧
      ∀ k, q.next = some k → ∀ first ∈ (outKeys piece).head?, first = k := by
  induction h with
  | nil => simp [outKeys]
  | cons step _ ih =>
    rw [List.mem_cons, not_or] at clean
    obtain ⟨chain, due⟩ := ih clean.2
    cases step with
    | reset => exact absurd rfl clean.1
    | accept free => exact ⟨chain, due⟩
    | @out key frame turn carried =>
      refine ⟨?_, ?_⟩
      · change List.IsChain _ (key :: outKeys _)
        exact List.isChain_cons.mpr ⟨fun b hb => due (succ key) rfl b hb, chain⟩
      · intro k hk first hfirst
        have hhead : key = first := by simpa [outKeys] using hfirst
        exact hhead.symm.trans (turn k hk).symm

theorem frame_of_accepts {q : Queue κ φ} {before after : List (Event κ φ)} {key : κ} {frame : φ}
    (h : Accepts (Queue.Step succ Silent) Queue.empty (before ++ .out key frame :: after) q) :
    acceptedSince key before = [frame] ∨ acceptedSince key before = [] ∧ Silent frame := by
  obtain ⟨r, u, first, step, _⟩ := h.at_event
  rw [acceptedSince_eq_pending first key]
  cases step with
  | out due carried =>
    rcases carried with waiting | ⟨missing, silent⟩
    · exact .inl (by simp [waiting])
    · exact .inr ⟨by simp [missing], silent⟩

theorem orderedDelivery_of_accepts {q : Queue κ φ} {log : List (Event κ φ)}
    (h : Accepts (Queue.Step succ Silent) Queue.empty log q) :
    OrderedDelivery succ Silent log where
  consecutive := by
    rintro before piece after rfl clean
    obtain ⟨_, first, _⟩ := h.split
    obtain ⟨_, _, middle⟩ := first.split
    exact (outKeys_chain middle clean).1
  frames := by
    rintro before key frame after rfl
    exact frame_of_accepts h
  once := by
    rintro before key frame between frame' after rfl
    rw [← List.cons_append, ← List.append_assoc] at h
    obtain carried | ⟨_, silent⟩ := frame_of_accepts h
    · rw [acceptedSince_out] at carried
      exact .inl (accept_mem_of_acceptedSince (by simp [carried]))
    · exact .inr silent

end Shairplay.Lib.Playout
