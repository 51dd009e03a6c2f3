import Shairplay.Lib.Segment
import Shairplay.Net.Server.Loop

/-!
# Read boundaries do not matter to a plaintext connection

The bytes of a connection may arrive in any pieces. On a connection that never becomes
encrypted the same requests are dispatched, the same responses are written and the same
error ends the connection, whatever the pieces are.

Only a connection that the server itself has closed may keep a difference: bytes that
arrived together with the last request are still in the parser, bytes that would have
arrived later are not. `Same` allows for exactly that.
-/

namespace Shairplay.Net

def Event.request : Event → Option Proto.Request
  | .dispatched request _ _ => some request
  | _ => none

/-- Whether an event is the final status 400. -/
def Event.isBadRequest : Event → Bool
  | .badRequest _ => true
  | _ => false

namespace Connection

open Lib Proto ConnectionHandler Segment

variable {η : Type} [ConnectionHandler η] {httparse : Httparse} {s : Connection η}

/-- Equal states, except that closed connections may differ in the bytes they hold. -/
structure Same (s t : Connection η) : Prop where
  handler : s.handler = t.handler
  log : s.log = t.log
  closed : s.closed = t.closed
  parser : { s.request with buffer := [] } = { t.request with buffer := [] }
  state : s.closed = false → s = t

omit [ConnectionHandler η] in
theorem same_equivalence : Equivalence (Same (η := η)) where
  refl _ := ⟨rfl, rfl, rfl, rfl, fun _ => rfl⟩
  symm h := ⟨h.handler.symm, h.log.symm, h.closed.symm, h.parser.symm,
    fun isOpen => (h.state (h.closed.trans isOpen)).symm⟩
  trans h k := ⟨h.handler.trans k.handler, h.log.trans k.log, h.closed.trans k.closed,
    h.parser.trans k.parser,
    fun isOpen => (h.state isOpen).trans (k.state (h.closed.symm.trans isOpen))⟩

/-- Go on with a connection unless it is closed. -/
def andThen (s : Connection η) (next : Connection η → Connection η) : Connection η :=
  if s.closed then s else next s

omit [ConnectionHandler η] in
theorem andThen_of_closed (closed : s.closed = true) (next : Connection η → Connection η) :
    s.andThen next = s := if_pos closed

omit [ConnectionHandler η] in
theorem andThen_of_open (isOpen : s.closed = false) (next : Connection η → Connection η) :
    s.andThen next = next s :=
  if_neg (by simp [isOpen])

section Pieces

variable {xs ys : List UInt8} {ox oy : List Origin}

/-- Two pieces fed one after the other. -/
theorem addRequestData_append (length : ox.length = xs.length) (isOpen : s.closed = false) :
    Same (s.addRequestData httparse (xs ++ ys) (ox ++ oy))
      ((s.addRequestData httparse xs ox).andThen fun u => u.addRequestData httparse ys oy) := by
  have both := HttpRequest.addDataWithBodyLimit_append httparse (requestBodyPolicy s.handler)
    s.request xs ys
  have zipped : (xs ++ ys).zip (ox ++ oy) = xs.zip ox ++ ys.zip oy := List.zip_append length.symm
  cases first : s.request.addDataWithBodyLimit httparse (requestBodyPolicy s.handler) xs with
  | mk request result =>
    rw [first] at both
    cases result with
    | error e =>
      rw [addRequestData_of_error first, addRequestData_of_error both,
        andThen_of_closed (writeBadRequestAndClose_closed _)]
      exact ⟨rfl, rfl, rfl, rfl, fun h => absurd h.symm Bool.false_ne_true⟩
    | ok u =>
      rw [addRequestData_of_ok first, andThen_of_open (by exact isOpen)]
      simp only [addRequestData, both, zipped, List.append_assoc]
      exact same_equivalence.refl _

theorem restart_append (length : ox.length = xs.length)
    (isOpen : s.closed = false) (more : ys ≠ []) :
    Same (s.restart httparse (xs ++ ys) (ox ++ oy))
      ((s.restart httparse xs ox).andThen fun u => u.addRequestData httparse ys oy) := by
  simp only [restart, List.append_eq_nil_iff, more, and_false, if_false]
  cases xs with
  | nil =>
    have none : ox = [] := List.length_eq_zero_iff.mp length
    rw [if_pos rfl, andThen_of_open (by exact isOpen), none]
    exact same_equivalence.refl _
  | cons x xs =>
    rw [if_neg (List.cons_ne_nil x xs)]
    exact addRequestData_append length (by exact isOpen)

/-- A complete request keeps what it is fed for its successor. -/
theorem addRequestData_of_complete (ready : Ready s) (complete : s.request.complete = true) :
    s.addRequestData httparse ys oy =
      { s with request := { s.request with buffer := s.request.buffer ++ ys }
               fed := s.fed ++ ys.zip oy } :=
  addRequestData_of_ok (u := ()) (HttpRequest.addDataWithBodyLimit_ok_iff.mpr
    ⟨ready.noError, HttpRequest.ingest_of_complete ys complete⟩)

/-- Dispatching commutes with bytes that arrive behind the request. -/
theorem dispatchOne_addRequestData (ready : Ready s) (isOpen : s.closed = false)
    (complete : s.request.complete = true) (length : oy.length = ys.length) (more : ys ≠ []) :
    Same ((s.addRequestData httparse ys oy).dispatchOne httparse)
      ((s.dispatchOne httparse).andThen fun u => u.addRequestData httparse ys oy) := by
  have leftover : ({ s.request with buffer := s.request.buffer ++ ys } : HttpRequest).leftover =
      s.request.leftover ++ ys := by
    rw [HttpRequest.leftover_of_complete complete,
      HttpRequest.leftover_of_complete (by exact complete)]
  have zipped : (ys.zip oy).length = ys.length := by simp [length]
  -- the cut in the history stays where it was
  have cut : (s.addRequestData httparse ys oy).splitFed =
      (s.splitFed.1, s.splitFed.2 ++ ys.zip oy) := by
    rw [addRequestData_of_complete ready complete]
    simp only [splitFed, leftover, List.length_append, zipped, Nat.add_sub_add_right,
      List.splitAt_eq]
    rw [List.take_append_of_le_length (Nat.sub_le _ _),
      List.drop_append_of_le_length (Nat.sub_le _ _)]
  have origins : (ys.zip oy).map Prod.snd = oy := List.map_snd_zip (by omega)
  simp only [dispatchOne, cut]
  rw [addRequestData_of_complete ready complete]
  simp only [leftover, List.map_append, origins]
  split
  · rw [andThen_of_closed rfl]
    exact ⟨rfl, rfl, rfl, rfl, fun h => absurd h.symm Bool.false_ne_true⟩
  · split
    · rw [andThen_of_closed rfl]
      exact ⟨rfl, rfl, rfl, rfl, fun h => absurd h.symm Bool.false_ne_true⟩
    · have aligned : (s.splitFed.2.map Prod.snd).length = s.request.leftover.length := by
        simpa using ready.length_rest
      exact restart_append aligned (by exact isOpen) more

end Pieces

theorem Drains.of_closed {s t : Connection η} (h : Drains httparse s t) (closed : s.closed = true) :
    t = s := h.unique (.settled (.inl closed))

theorem Same.drains {s s' t : Connection η} (same : Same s s') (h : Drains httparse s' t) :
    ∃ t', Drains httparse s t' ∧ Same t' t := by
  cases isOpen : s.closed with
  | true =>
    rw [h.of_closed (same.closed.symm.trans isOpen)]
    exact ⟨s, .settled (.inl isOpen), same⟩
  | false =>
    rw [same.state isOpen]
    exact ⟨t, h, same_equivalence.refl t⟩

/-- Bytes that arrive before the loop runs have the effect of bytes that arrive after. -/
theorem Drains.addRequestData {s t : Connection η} (h : Drains httparse s t)
    (ready : s.closed = false → Ready s) {ys : List UInt8} {oy : List Origin}
    (length : oy.length = ys.length) (more : ys ≠ []) :
    ∃ t', Drains httparse (s.andThen fun u => u.addRequestData httparse ys oy) t' ∧
      Same t' (t.andThen fun u =>
        (u.addRequestData httparse ys oy).sendCompletedResponses httparse) := by
  induction h with
  | @settled s settled =>
    cases isOpen : s.closed with
    | true =>
      rw [andThen_of_closed isOpen, andThen_of_closed isOpen]
      exact ⟨s, .settled settled, same_equivalence.refl s⟩
    | false =>
      rw [andThen_of_open isOpen, andThen_of_open isOpen]
      exact ⟨_, drains_sendCompletedResponses httparse _, same_equivalence.refl _⟩
  | @round s t isOpen complete _ ih =>
    have ready := ready isOpen
    obtain ⟨t', drains, same⟩ := ih fun next => ready.dispatchOne next
    obtain ⟨t'', drains', same'⟩ :=
      (dispatchOne_addRequestData ready isOpen complete length more).drains drains
    refine ⟨t'', ?_, same_equivalence.trans same' same⟩
    rw [andThen_of_open isOpen]
    refine .round ?_ ?_ drains'
    · rw [addRequestData_of_complete ready complete]
      exact isOpen
    · rw [addRequestData_of_complete ready complete]
      exact complete

/-- Feed bytes of one origin to a connection that is open, and dispatch what they complete. -/
def feed (httparse : Httparse) (origin : Origin) (s : Connection η) (data : List UInt8) :
    Connection η :=
  s.andThen fun u =>
    (u.addRequestData httparse data (data.map fun _ => origin)).sendCompletedResponses httparse

theorem Ready.feed {origin : Origin} (ready : s.closed = false → Ready s)
    (data : List UInt8) (isOpen : (s.feed httparse origin data).closed = false) :
    Ready (s.feed httparse origin data) := by
  rw [Connection.feed] at isOpen ⊢
  cases before : s.closed with
  | true =>
    rw [andThen_of_closed before, before] at isOpen
    exact absurd isOpen.symm Bool.false_ne_true
  | false =>
    rw [andThen_of_open before] at isOpen ⊢
    refine (drains_sendCompletedResponses httparse _).ready ?_ isOpen
    exact fun next => (ready before).addRequestData (by simp) next

/-- Bytes in two pieces. -/
theorem feed_append {origin : Origin} (ready : s.closed = false → Ready s)
    {xs ys : List UInt8} (more : ys ≠ []) :
    Same (s.feed httparse origin (xs ++ ys))
      ((s.feed httparse origin xs).feed httparse origin ys) := by
  simp only [feed]
  cases isOpen : s.closed with
  | true =>
    rw [andThen_of_closed isOpen, andThen_of_closed isOpen, andThen_of_closed isOpen]
    exact same_equivalence.refl s
  | false =>
    rw [andThen_of_open isOpen, andThen_of_open isOpen, List.map_append]
    -- the loop between the pieces, then the loop with both pieces in the parser
    have length : (ys.map fun _ => origin).length = ys.length := by simp
    obtain ⟨t, drains, same⟩ := (drains_sendCompletedResponses httparse
      (s.addRequestData httparse xs (xs.map fun _ => origin))).addRequestData
        (fun next => (ready isOpen).addRequestData (by simp) next) length more
    have joint : Same
        (s.addRequestData httparse (xs ++ ys) ((xs.map fun _ => origin) ++ ys.map fun _ => origin))
        ((s.addRequestData httparse xs (xs.map fun _ => origin)).andThen fun u =>
          u.addRequestData httparse ys (ys.map fun _ => origin)) :=
      addRequestData_append (by simp) isOpen
    obtain ⟨t', drains', same'⟩ := joint.drains drains
    rw [(drains_sendCompletedResponses httparse _).unique drains']
    exact same_equivalence.trans same' same

theorem processRead_of_plaintext {data : List UInt8} (plain : ∀ h : η, isEncrypted h = false)
    (more : data ≠ []) : s.processRead httparse data = s.feed httparse .plaintext data := by
  rw [feed]
  cases closed : s.closed with
  | true => rw [processRead, if_pos closed, andThen_of_closed closed]
  | false =>
    rw [processRead, if_neg (by simp [closed]), if_neg more, andThen_of_open closed]
    simp only [plain, Bool.false_eq_true, if_false]

theorem Ready.processRead (plain : ∀ h : η, isEncrypted h = false)
    (ready : s.closed = false → Ready s) (data : List UInt8)
    (isOpen : (s.processRead httparse data).closed = false) :
    Ready (s.processRead httparse data) := by
  by_cases more : data = []
  · rw [Connection.processRead] at isOpen ⊢
    cases before : s.closed with
    | true =>
      rw [if_pos before, before] at isOpen
      exact absurd isOpen.symm Bool.false_ne_true
    | false =>
      rw [if_neg (by simp [before]), if_pos more] at isOpen
      exact absurd isOpen.symm Bool.false_ne_true
  · rw [processRead_of_plaintext plain more] at isOpen ⊢
    exact Ready.feed ready data isOpen

theorem processRead_append (plain : ∀ h : η, isEncrypted h = false)
    (ready : s.closed = false → Ready s) {xs ys : List UInt8} (first : xs ≠ []) (more : ys ≠ []) :
    Same (s.processRead httparse (xs ++ ys))
      ((s.processRead httparse xs).processRead httparse ys) := by
  have joined : xs ++ ys ≠ [] := by simp [first]
  rw [processRead_of_plaintext plain joined, processRead_of_plaintext plain first,
    processRead_of_plaintext plain more]
  exact feed_append ready more

/-- A stream ends in the same state however it is cut. -/
theorem processConnection_same (plain : ∀ h : η, isEncrypted h = false) (handler : η)
    {reads reads' : List (List UInt8)} (pieces : Pieces reads) (pieces' : Pieces reads')
    (same : reads.flatten = reads'.flatten) :
    Same (processConnection httparse handler reads)
      (processConnection httparse handler reads') :=
  foldl_of_flatten_eq (I := fun s => s.closed = false → Ready s) same_equivalence
    (fun _ chunk ready => Ready.processRead plain ready chunk)
    (fun _ _ _ ready first more => processRead_append plain ready first more)
    (fun _ => ready_accept handler) pieces pieces' same

/-- The requests that went to the handler, in order. -/
def dispatchedRequests (s : Connection η) : List Request := s.log.filterMap Event.request

/-- The number of requests dispatched before the connection failed with status 400. -/
def failedAfter (s : Connection η) : Option Nat :=
  if s.log.any Event.isBadRequest then
    some ((s.log.takeWhile fun e => !e.isBadRequest).filterMap Event.request).length
  else none

/-- On a connection that never becomes encrypted, the pieces in which a stream arrives
decide nothing: the same requests are dispatched, a failure comes after the same number
of them, and the parser ends in the same state. Only after the server has closed the
connection may the parser hold different bytes behind the last request. -/
theorem processConnection_segmentation (plain : ∀ h : η, isEncrypted h = false) (handler : η)
    {reads reads' : List (List UInt8)} (pieces : Pieces reads) (pieces' : Pieces reads')
    (same : reads.flatten = reads'.flatten) :
    let s := processConnection httparse handler reads
    let t := processConnection httparse handler reads'
    s.dispatchedRequests = t.dispatchedRequests ∧ s.failedAfter = t.failedAfter ∧
      { s.request with buffer := [] } = { t.request with buffer := [] } ∧
      s.closed = t.closed ∧ (s.closed = false → s.request = t.request) := by
  intro s t
  have ends : Same s t := processConnection_same plain handler pieces pieces' same
  refine ⟨?_, ?_, ends.parser, ends.closed, ?_⟩
  · rw [dispatchedRequests, dispatchedRequests, ends.log]
  · rw [failedAfter, failedAfter, ends.log]
  · intro isOpen
    rw [ends.state isOpen]

/-- A handler that answers every request, and closes the connection after a teardown. -/
@[reducible] def teardownHandler : ConnectionHandler Unit where
  connRequest h request :=
    (h, ((HttpResponse.new "RTSP/1.0" 200 "OK").finish none).setDisconnect
      (request.method = some "TEARDOWN"))

/-- `httparse` on two small requests. -/
def smallRequests : Httparse := fun buffer =>
  if buffer = Utf8.encode "TEARDOWN * HTTP/1.0\r\n\r\n" then
    .complete (some "TEARDOWN") (some "*") []
  else if buffer = Utf8.encode "OPTIONS * HTTP/1.0\r\n\r\n" then
    .complete (some "OPTIONS") (some "*") []
  else .incomplete

def teardownRequest : List UInt8 := Utf8.encode "TEARDOWN * RTSP/1.0\r\n\r\n"

def optionsRequest : List UInt8 := Utf8.encode "OPTIONS * RTSP/1.0\r\n\r\n"

theorem processConnection_segmentation_options :
    Pieces [optionsRequest ++ optionsRequest] ∧
      (@processConnection Unit teardownHandler smallRequests ()
        [optionsRequest ++ optionsRequest]).dispatchedRequests =
      (@processConnection Unit teardownHandler smallRequests ()
        [optionsRequest.take 5, optionsRequest.drop 5 ++ optionsRequest]).dispatchedRequests ∧
      (@processConnection Unit teardownHandler smallRequests ()
        [optionsRequest ++ optionsRequest]).dispatchedRequests.length = 2 :=
  ⟨by decide +kernel,
    (@processConnection_segmentation Unit teardownHandler smallRequests (fun _ => rfl) ()
      [optionsRequest ++ optionsRequest]
      [optionsRequest.take 5, optionsRequest.drop 5 ++ optionsRequest] (by decide +kernel)
      (by decide +kernel) (by decide +kernel)).1,
    by decide +kernel⟩

/-- Bytes behind a teardown stay in the parser when they arrive with it, and not when
they would arrive later; neither connection fails. -/
theorem teardown_keeps_coalesced_bytes :
    [teardownRequest ++ [lf]].flatten = [teardownRequest, [lf]].flatten ∧
      (@processConnection Unit teardownHandler smallRequests ()
        [teardownRequest ++ [lf]]).failedAfter = none ∧
      (@processConnection Unit teardownHandler smallRequests ()
        [teardownRequest, [lf]]).failedAfter = none ∧
      (@processConnection Unit teardownHandler smallRequests () [teardownRequest ++ [lf]]).request ≠
      (@processConnection Unit teardownHandler smallRequests ()
        [teardownRequest, [lf]]).request := by
  decide +kernel

end Connection

end Shairplay.Net
