import Shairplay.Net.Server
import Shairplay.Proto.Http.Segmentation

/-!
# The dispatch loop

The loop over complete requests ends, because every round feeds the parser fewer bytes
than the round before. `Drains` describes its effect without counting rounds, which is
how the later results talk about it.

`Ready` is the invariant of an open connection: the parser has no latched error, and
what lies behind the pending request is the end of the recorded history. The history
therefore splits into the bytes of the pending request and the bytes behind it.
-/

namespace Shairplay.Net.Connection

open Lib Proto ConnectionHandler

variable {η : Type} [ConnectionHandler η] {httparse : Httparse} {s : Connection η}

theorem addRequestData_of_ok {data : List UInt8} {origins : List Origin}
    {request : HttpRequest} {u : Unit}
    (fed : s.request.addDataWithBodyLimit httparse (requestBodyPolicy s.handler) data =
      (request, .ok u)) :
    s.addRequestData httparse data origins =
      { s with request, fed := s.fed ++ data.zip origins } := by
  simp only [addRequestData, fed]

theorem addRequestData_of_error {data : List UInt8} {origins : List Origin}
    {request : HttpRequest} {e : ProtocolError}
    (fed : s.request.addDataWithBodyLimit httparse (requestBodyPolicy s.handler) data =
      (request, .error e)) :
    s.addRequestData httparse data origins =
      writeBadRequestAndClose { s with request, fed := s.fed ++ data.zip origins } := by
  simp only [addRequestData, fed]

@[simp] theorem writeBadRequestAndClose_closed (s : Connection η) :
    s.writeBadRequestAndClose.closed = true := rfl

/-- What holds while a connection is open. -/
structure Ready (s : Connection η) : Prop where
  noError : s.request.error = none
  aligned : s.request.leftover <:+ s.fed.map Prod.fst

omit [ConnectionHandler η] in
theorem ready_accept (handler : η) : Ready (accept handler) := ⟨rfl, List.nil_suffix⟩

omit [ConnectionHandler η] in
/-- The history behind the pending request has the length of the leftover. -/
theorem Ready.length_rest (h : Ready s) : s.splitFed.2.length = s.request.leftover.length := by
  have shorter := h.aligned.length_le
  rw [List.length_map] at shorter
  simp only [splitFed, List.splitAt_eq, List.length_drop]
  omega

theorem Ready.addRequestData (h : Ready s) {data : List UInt8}
    {origins : List Origin} (length : origins.length = data.length)
    (isOpen : (s.addRequestData httparse data origins).closed = false) :
    Ready (s.addRequestData httparse data origins) := by
  cases fed : s.request.addDataWithBodyLimit httparse (requestBodyPolicy s.handler) data with
  | mk request result =>
    cases result with
    | error e =>
      rw [addRequestData_of_error fed, writeBadRequestAndClose_closed] at isOpen
      exact absurd isOpen.symm Bool.false_ne_true
    | ok u =>
      rw [addRequestData_of_ok fed]
      refine ⟨?_, ?_⟩
      · have kept := HttpRequest.ingest_error httparse (requestBodyPolicy s.handler) s.request data
        rw [(HttpRequest.addDataWithBodyLimit_ok_iff.mp fed).2] at kept
        exact kept.trans h.noError
      · obtain ⟨front, aligned⟩ := h.aligned
        have zipped : (data.zip origins).map Prod.fst = data :=
          List.map_fst_zip (by omega)
        rw [List.map_append, zipped, ← aligned, List.append_assoc]
        exact (HttpRequest.leftover_suffix fed).trans (List.suffix_append front _)

theorem Ready.restart {leftover : List UInt8} {origins : List Origin}
    (length : origins.length = leftover.length)
    (isOpen : (s.restart httparse leftover origins).closed = false) :
    Ready (s.restart httparse leftover origins) := by
  have fresh : Ready { s with request := {}, fed := [] } := ⟨rfl, List.nil_suffix⟩
  simp only [Connection.restart] at isOpen ⊢
  split
  · exact fresh
  · rename_i more
    rw [if_neg more] at isOpen
    exact fresh.addRequestData length isOpen

/-- What dispatching one request can do: close the connection, or go on with the
leftover after the handler has answered. -/
theorem dispatchOne_cases (httparse : Httparse) (s : Connection η) :
    (∃ handler log, s.dispatchOne httparse = { s with handler, log, closed := true }) ∨
      ∃ handler log, s.dispatchOne httparse =
        { s with handler, log }.restart httparse s.request.leftover
          (s.splitFed.2.map Prod.snd) := by
  simp only [dispatchOne]
  split
  · exact .inl ⟨_, _, rfl⟩
  · split
    · exact .inl ⟨_, _, rfl⟩
    · exact .inr ⟨_, _, rfl⟩

theorem Ready.dispatchOne (h : Ready s) (isOpen : (s.dispatchOne httparse).closed = false) :
    Ready (s.dispatchOne httparse) := by
  obtain ⟨handler, log, eq⟩ | ⟨handler, log, eq⟩ := dispatchOne_cases httparse s
  · rw [eq] at isOpen
    exact absurd isOpen.symm Bool.false_ne_true
  · rw [eq] at isOpen ⊢
    exact Ready.restart (by simpa using h.length_rest) isOpen

/-- Nothing is left to dispatch. -/
def Settled (s : Connection η) : Prop := s.closed = true ∨ s.request.complete = false

/-- The effect of the loop, without a count of rounds. -/
inductive Drains (httparse : Httparse) : Connection η → Connection η → Prop
  | settled {s : Connection η} : Settled s → Drains httparse s s
  | round {s t : Connection η} : s.closed = false → s.request.complete = true →
      Drains httparse (s.dispatchOne httparse) t → Drains httparse s t

/-- A round leaves a shorter leftover behind. -/
theorem dispatchOne_leftover_lt (unsettled : ¬ Settled (s.dispatchOne httparse)) :
    (s.dispatchOne httparse).request.buffer.length < s.request.leftover.length := by
  rw [Settled, not_or, Bool.not_eq_true, Bool.not_eq_false] at unsettled
  obtain ⟨isOpen, complete⟩ := unsettled
  obtain ⟨handler, log, eq⟩ | ⟨handler, log, eq⟩ := dispatchOne_cases httparse s
  · rw [eq] at isOpen
    exact absurd isOpen.symm Bool.false_ne_true
  · rw [eq] at isOpen complete ⊢
    simp only [Connection.restart] at isOpen complete ⊢
    split at complete
    · exact absurd complete Bool.false_ne_true
    · rename_i more
      rw [if_neg more] at isOpen ⊢
      revert isOpen complete
      cases fed : ({} : HttpRequest).addDataWithBodyLimit httparse (requestBodyPolicy handler)
          s.request.leftover with
      | mk request result =>
        cases result with
        | error e =>
          rw [addRequestData_of_error (by exact fed)]
          intro isOpen
          exact absurd isOpen.symm Bool.false_ne_true
        | ok u =>
          rw [addRequestData_of_ok (by exact fed)]
          intro _ complete
          have done : (({} : HttpRequest).addDataWithBodyLimit httparse
              (requestBodyPolicy handler) s.request.leftover).1.complete = true := by
            rw [fed]
            exact complete
          have shorter := HttpRequest.addDataWithBodyLimit_leftover_lt rfl rfl done
          rw [fed] at shorter
          exact shorter

theorem drains_sendLoop {fuel : Nat} (enough : s.request.buffer.length < fuel) :
    Drains httparse s (s.sendLoop httparse fuel) := by
  induction fuel generalizing s with
  | zero => exact absurd enough (Nat.not_lt_zero _)
  | succ fuel ih =>
    rw [sendLoop]
    by_cases settled : Settled s
    · have stop : (!s.closed && s.request.complete) = false := by
        rcases settled with closed | reading
        · simp [closed]
        · simp [reading]
      rw [if_neg (by simp [stop])]
      exact .settled settled
    · have going := settled
      rw [Settled, not_or, Bool.not_eq_true, Bool.not_eq_false] at going
      rw [if_pos (by simp [going])]
      refine .round going.1 going.2 ?_
      by_cases next : Settled (s.dispatchOne httparse)
      · -- one more round is the last one, however much fuel there is
        have stop : (s.dispatchOne httparse).sendLoop httparse fuel = s.dispatchOne httparse := by
          cases fuel with
          | zero => rfl
          | succ fuel =>
            rw [sendLoop, if_neg]
            rcases next with closed | reading
            · simp [closed]
            · simp [reading]
        rw [stop]
        exact .settled next
      · have shorter := dispatchOne_leftover_lt next
        rw [HttpRequest.leftover_of_complete going.2] at shorter
        exact ih (by omega)

/-- The loop of the code reaches the end. -/
theorem drains_sendCompletedResponses (httparse : Httparse) (s : Connection η) :
    Drains httparse s (s.sendCompletedResponses httparse) :=
  drains_sendLoop (Nat.lt_succ_self _)

theorem Drains.settled_right {s t : Connection η} (h : Drains httparse s t) : Settled t := by
  induction h with
  | settled settled => exact settled
  | round _ _ _ ih => exact ih

theorem Drains.unique {s t t' : Connection η} (h : Drains httparse s t)
    (h' : Drains httparse s t') : t = t' := by
  induction h with
  | settled settled =>
    cases h' with
    | settled _ => rfl
    | round isOpen complete _ => simp [Settled, isOpen, complete] at settled
  | round isOpen complete _ ih =>
    cases h' with
    | settled settled => simp [Settled, isOpen, complete] at settled
    | round _ _ rest => exact ih rest

theorem Drains.ready {s t : Connection η} (h : Drains httparse s t)
    (ready : s.closed = false → Ready s) (isOpen : t.closed = false) : Ready t := by
  induction h with
  | settled _ => exact ready isOpen
  | round before _ _ ih => exact ih (fun next => (ready before).dispatchOne next) isOpen

section States

variable (httparse)

/-- Feed one read to the parser, in the mode of the handler. -/
def ingestRead (s : Connection η) (data : List UInt8) : Connection η :=
  if isEncrypted s.handler then s.ingestEncryptedData httparse data
  else s.addRequestData httparse data (data.map fun _ => .plaintext)

/-- The states from which the loop dispatches a request. -/
def roundStates : Nat → Connection η → List (Connection η)
  | 0, _ => []
  | fuel + 1, s =>
    if !s.closed && s.request.complete then s :: roundStates fuel (s.dispatchOne httparse)
    else []

/-- The states from which a request is dispatched after one read. -/
def readStates (s : Connection η) (data : List UInt8) : List (Connection η) :=
  if s.closed || data.isEmpty then []
  else
    roundStates httparse ((s.ingestRead httparse data).request.buffer.length + 1)
      (s.ingestRead httparse data)

/-- The states from which a request is dispatched during a sequence of reads. -/
def dispatchStates : Connection η → List (List UInt8) → List (Connection η)
  | _, [] => []
  | s, data :: reads =>
    s.readStates httparse data ++ dispatchStates (s.processRead httparse data) reads

end States

/-- What each dispatched request keeps, the loop keeps. -/
theorem sendLoop_invariant {P Q : Connection η → Prop}
    (keeps : ∀ s, P s → s.closed = false → Q s → P (s.dispatchOne httparse)) {fuel : Nat}
    (start : P s) (always : ∀ t ∈ roundStates httparse fuel s, Q t) :
    P (s.sendLoop httparse fuel) := by
  induction fuel generalizing s with
  | zero => exact start
  | succ fuel ih =>
    rw [sendLoop]
    rw [roundStates] at always
    split at always
    · rename_i going
      rw [if_pos going]
      rw [Bool.and_eq_true, Bool.not_eq_true'] at going
      have now : Q s := always s List.mem_cons_self
      refine ih (keeps s start going.1 now) ?_
      intro t mem
      exact always t (List.mem_cons_of_mem s mem)
    · rename_i stop
      rw [if_neg stop]
      exact start

/-- What each read and each dispatched request keep, the connection keeps. -/
theorem foldl_processRead_invariant {P Q : Connection η → Prop}
    (closes : ∀ s, P s → P { s with closed := true })
    (ingests : ∀ s data, P s → s.closed = false → P (s.ingestRead httparse data))
    (keeps : ∀ s, P s → s.closed = false → Q s → P (s.dispatchOne httparse))
    {s : Connection η} (start : P s) (reads : List (List UInt8))
    (always : ∀ t ∈ dispatchStates httparse s reads, Q t) :
    P (reads.foldl (processRead httparse) s) := by
  induction reads generalizing s with
  | nil => exact start
  | cons data reads ih =>
    have later : ∀ t ∈ dispatchStates httparse (s.processRead httparse data) reads, Q t := by
      intro t mem
      exact always t (List.mem_append_right _ mem)
    have now : ∀ t ∈ s.readStates httparse data, Q t := by
      intro t mem
      exact always t (List.mem_append_left _ mem)
    refine ih ?_ later
    rw [processRead]
    split
    · exact start
    · rename_i opened
      split
      · exact closes s start
      · rename_i more
        rw [Bool.not_eq_true] at opened
        have empty : data.isEmpty = false := by simpa using more
        rw [readStates, opened, empty] at now
        exact sendLoop_invariant keeps (ingests s data start opened) now

end Shairplay.Net.Connection
