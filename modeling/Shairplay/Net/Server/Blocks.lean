import Shairplay.Net.Server.Segmentation

/-!
# Plaintext that arrives in blocks

Behind the decryption of a connection the parser is fed with blocks. It does not matter how many
of them are fed at once. What decryption itself keeps, in the handler and in the raw buffer, is
not noticed by the parser and the dispatching.
-/

namespace Shairplay.Net.Connection

open Lib Proto ConnectionHandler

variable {η : Type} [ConnectionHandler η] {httparse : Httparse} {s : Connection η}

/-- Feed a decrypted block. An empty one changes nothing. -/
def receive (httparse : Httparse) (s : Connection η) (block : List UInt8) : Connection η :=
  if block = [] then s else s.feed httparse .decrypted block

/-- Nothing is pending on an open connection but an incomplete request. -/
def Idle (s : Connection η) : Prop := s.closed = false → Ready s ∧ s.request.complete = false

omit [ConnectionHandler η] in
theorem Idle.ready (idle : Idle s) : s.closed = false → Ready s :=
  fun isOpen => (idle isOpen).1

theorem feed_of_closed (closed : s.closed = true) (origin : Origin) (data : List UInt8) :
    s.feed httparse origin data = s := andThen_of_closed closed _

theorem receive_of_closed (closed : s.closed = true) (block : List UInt8) :
    s.receive httparse block = s := by
  rw [receive, feed_of_closed closed, ite_self]

theorem Idle.feed (idle : Idle s) (origin : Origin) (data : List UInt8) :
    Idle (s.feed httparse origin data) := by
  intro isOpen
  refine ⟨Ready.feed idle.ready data isOpen, ?_⟩
  cases before : s.closed with
  | true =>
    rw [feed_of_closed before] at isOpen
    exact absurd (isOpen.symm.trans before) Bool.false_ne_true
  | false =>
    rw [Connection.feed, andThen_of_open before] at isOpen ⊢
    have drains := drains_sendCompletedResponses httparse
      (s.addRequestData httparse data (data.map fun _ => origin))
    rcases drains.settled_right with closed | reading
    · exact absurd (isOpen.symm.trans closed) Bool.false_ne_true
    · exact reading

theorem Idle.receive (idle : Idle s) (block : List UInt8) : Idle (s.receive httparse block) := by
  rw [Connection.receive]
  split
  · exact idle
  · exact idle.feed _ block

theorem Idle.sendCompletedResponses (idle : Idle s) : s.sendCompletedResponses httparse = s := by
  refine (drains_sendCompletedResponses httparse s).unique (.settled ?_)
  cases before : s.closed with
  | true => exact .inl before
  | false => exact .inr (idle before).2

theorem receive_append (idle : Idle s) (xs ys : List UInt8) :
    Same (s.receive httparse (xs ++ ys)) ((s.receive httparse xs).receive httparse ys) := by
  by_cases first : xs = []
  · simp only [receive, first, List.nil_append, if_true]
    exact same_equivalence.refl _
  · by_cases more : ys = []
    · simp only [receive, more, List.append_nil, if_true]
      exact same_equivalence.refl _
    · simp only [receive, first, more, List.append_eq_nil_iff, and_self, if_false]
      exact feed_append idle.ready more

/-- Blocks one by one, or all of them at once. -/
theorem receive_flatten (idle : Idle s) (blocks : List (List UInt8)) :
    Same (s.receive httparse blocks.flatten) (blocks.foldl (receive httparse) s) := by
  induction blocks generalizing s with
  | nil =>
    simp only [List.flatten_nil, receive, if_true, List.foldl_nil]
    exact same_equivalence.refl s
  | cons block blocks ih =>
    exact same_equivalence.trans (receive_append idle block blocks.flatten)
      (ih (idle.receive block))

theorem log_addRequestData (s : Connection η) (data : List UInt8) (origins : List Origin) :
    s.log <+: (s.addRequestData httparse data origins).log := by
  unfold addRequestData
  dsimp only
  split
  · exact List.prefix_rfl
  · exact List.prefix_append _ _

theorem log_dispatchOne (s : Connection η) : s.log <+: (s.dispatchOne httparse).log := by
  simp only [dispatchOne]
  split
  · exact List.prefix_append _ _
  · split
    · rw [List.append_assoc]
      exact List.prefix_append _ _
    · rw [restart]
      dsimp only
      split
      · rw [List.append_assoc]
        exact List.prefix_append _ _
      · refine List.IsPrefix.trans ?_ (log_addRequestData _ _ _)
        rw [List.append_assoc]
        exact List.prefix_append _ _

theorem log_sendLoop (fuel : Nat) (s : Connection η) :
    s.log <+: (s.sendLoop httparse fuel).log := by
  induction fuel generalizing s with
  | zero => exact List.prefix_rfl
  | succ fuel ih =>
    rw [sendLoop]
    split
    · exact (log_dispatchOne s).trans (ih _)
    · exact List.prefix_rfl

theorem log_receive (s : Connection η) (block : List UInt8) :
    s.log <+: (s.receive httparse block).log := by
  rw [receive, feed, andThen]
  split
  · exact List.prefix_rfl
  · split
    · exact List.prefix_rfl
    · exact (log_addRequestData s _ _).trans (log_sendLoop _ _)

theorem dispatchedRequests_receive (s : Connection η) (blocks : List (List UInt8)) :
    s.dispatchedRequests <+: (blocks.foldl (receive httparse) s).dispatchedRequests := by
  induction blocks generalizing s with
  | nil => exact List.prefix_rfl
  | cons block blocks ih => exact ((log_receive s block).filterMap _).trans (ih _)

/-- A change of the handler that only decryption notices. -/
structure Unnoticed (P : η → Prop) (change : η → η) : Prop where
  connRequest : ∀ h r, P h →
    connRequest (change h) r = (change (connRequest h r).1, (connRequest h r).2) ∧
      P (ConnectionHandler.connRequest h r).1
  encryptOutgoing : ∀ h data, P h →
    encryptOutgoing (change h) data =
        (change (encryptOutgoing h data).1, (encryptOutgoing h data).2) ∧
      P (ConnectionHandler.encryptOutgoing h data).1
  afterResponse : ∀ h, P h → afterResponse (change h) = change (afterResponse h) ∧
    P (ConnectionHandler.afterResponse h)
  isEncrypted : ∀ h, isEncrypted (change h) = isEncrypted h
  requestBodyPolicy : ∀ h : η, requestBodyPolicy (change h) = requestBodyPolicy h

/-- The same connection with another state of decryption. -/
def reframe {η : Type} (change : η → η) (rawBuf : List UInt8) (s : Connection η) : Connection η :=
  { s with handler := change s.handler, rawBuf }

omit [ConnectionHandler η] in
theorem Idle.reframe (idle : Idle s) (change : η → η) (rawBuf : List UInt8) :
    Idle (s.reframe change rawBuf) := by
  intro isOpen
  obtain ⟨ready, reading⟩ := idle isOpen
  exact ⟨⟨ready.noError, ready.aligned⟩, reading⟩

namespace Unnoticed

variable {P : η → Prop} {change : η → η} (unnoticed : Unnoticed P change) (rawBuf : List UInt8)

include unnoticed

theorem answer {h : η} (fits : P h) (request : Request) :
    Connection.answer (change h) request =
        (change (Connection.answer h request).1, (Connection.answer h request).2) ∧
      P (Connection.answer h request).1 := by
  obtain ⟨same, keeps⟩ := unnoticed.connRequest h request fits
  simp only [Connection.answer, same, unnoticed.isEncrypted]
  split
  · obtain ⟨same', keeps'⟩ := unnoticed.encryptOutgoing _
      (ConnectionHandler.connRequest h request).2.data keeps
    rw [same']
    exact ⟨rfl, keeps'⟩
  · exact ⟨rfl, keeps⟩

theorem addRequestData (fits : P s.handler) (data : List UInt8) (origins : List Origin) :
    (s.reframe change rawBuf).addRequestData httparse data origins =
        (s.addRequestData httparse data origins).reframe change rawBuf ∧
      P (s.addRequestData httparse data origins).handler := by
  simp only [Connection.addRequestData, reframe, unnoticed.requestBodyPolicy]
  split
  · exact ⟨rfl, fits⟩
  · simp only [writeBadRequestAndClose, unnoticed.isEncrypted]
    split
    · obtain ⟨same, keeps⟩ := unnoticed.encryptOutgoing s.handler _ fits
      rw [same]
      exact ⟨rfl, keeps⟩
    · exact ⟨rfl, fits⟩

theorem restart (fits : P s.handler) (leftover : List UInt8) (origins : List Origin) :
    (s.reframe change rawBuf).restart httparse leftover origins =
        (s.restart httparse leftover origins).reframe change rawBuf ∧
      P (s.restart httparse leftover origins).handler := by
  simp only [Connection.restart]
  split
  · exact ⟨rfl, fits⟩
  · exact unnoticed.addRequestData rawBuf (s := { s with request := {}, fed := [] }) fits leftover
      origins

theorem dispatchOne (fits : P s.handler) :
    (s.reframe change rawBuf).dispatchOne httparse =
        (s.dispatchOne httparse).reframe change rawBuf ∧
      P (s.dispatchOne httparse).handler := by
  obtain ⟨same, keeps⟩ := unnoticed.answer fits s.request.toRequest
  simp only [Connection.dispatchOne, reframe, splitFed, same, unnoticed.isEncrypted]
  split
  · exact ⟨rfl, keeps⟩
  · obtain ⟨after, keeps'⟩ := unnoticed.afterResponse _ keeps
    rw [after]
    split
    · exact ⟨rfl, keeps'⟩
    · exact unnoticed.restart rawBuf (s := { s with handler := _, log := _ }) keeps' _ _

theorem sendLoop (fits : P s.handler) (fuel : Nat) :
    (s.reframe change rawBuf).sendLoop httparse fuel =
        (s.sendLoop httparse fuel).reframe change rawBuf ∧
      P (s.sendLoop httparse fuel).handler := by
  induction fuel generalizing s with
  | zero => exact ⟨rfl, fits⟩
  | succ fuel ih =>
    have going : (!(s.reframe change rawBuf).closed && (s.reframe change rawBuf).request.complete)
        = (!s.closed && s.request.complete) := rfl
    rw [Connection.sendLoop, Connection.sendLoop, going]
    split
    · obtain ⟨same, keeps⟩ := @dispatchOne _ _ httparse _ _ _ unnoticed rawBuf fits
      rw [same]
      exact ih keeps
    · exact ⟨rfl, fits⟩

theorem receive (fits : P s.handler) (block : List UInt8) :
    (s.reframe change rawBuf).receive httparse block =
        (s.receive httparse block).reframe change rawBuf ∧
      P (s.receive httparse block).handler := by
  simp only [Connection.receive, Connection.feed, andThen]
  split
  · exact ⟨rfl, fits⟩
  · have closed : (s.reframe change rawBuf).closed = s.closed := rfl
    rw [closed]
    split
    · exact ⟨rfl, fits⟩
    · obtain ⟨same, keeps⟩ := @addRequestData _ _ httparse _ _ _ unnoticed rawBuf fits block
        (block.map fun _ => .decrypted)
      rw [same]
      exact unnoticed.sendLoop rawBuf keeps _

end Unnoticed

end Shairplay.Net.Connection
