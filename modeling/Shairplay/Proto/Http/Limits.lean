import Shairplay.Lib.Machine
import Shairplay.Proto.Http.Segmentation

/-!
# Limits of the request parser

One buffer holds the headers, then the body, then what lies behind the request. A request
passes through these phases once, and each phase has its bound. Every call is logged here with
what it did on the way: the header bytes it stored, the answer of the policy, and the bytes it
took for the body. The log is faithful to the call: the call depends on the policy by the logged
answers only, and what it retains are the logged bytes.
-/

namespace Shairplay.Proto.HttpRequest

open Lib Machine

/-- A call of `add_data_with_body_limit`. Every call may come with a policy of its own. -/
structure Feed where
  data : List UInt8
  onHeaders : Request → Except ProtocolError Nat

/-- What happens during the calls: a header byte is stored, the policy answers, body bytes are
stored, a call returns. -/
inductive Event
  | pushed (length : Nat)
  | consulted (request : Request) (answer : Except ProtocolError Nat)
  | kept (needed buffered : Nat) (bytes : List UInt8)
  | returned (result : Except ProtocolError Unit)

def Event.answer? : Event → Option (Except ProtocolError Nat)
  | .consulted _ answer => some answer
  | _ => none

/-- The length of the buffer with a new header byte. -/
def Event.length? : Event → Option Nat
  | .pushed length => some length
  | _ => none

/-- The bytes that were stored for the body. -/
def Event.stored : Event → List UInt8
  | .kept _ _ bytes => bytes
  | _ => []

section Log

variable (httparse : Httparse) (onHeaders : Request → Except ProtocolError Nat)

/-- The policy is consulted behind the byte that completes the headers. -/
def headerEvents (r : HttpRequest) (byte : UInt8) : List Event :=
  if r.buffer.length = maxHeaderBytes then []
  else
    .pushed (r.pushByte byte).buffer.length ::
      if !(r.pushByte byte).atEmptyLine then []
      else
        match (r.pushByte byte).tryParseHeaders httparse with
        | (r, .ok true) => [.consulted r.toRequest (onHeaders r.toRequest)]
        | _ => []

def scanEvents : HttpRequest → List UInt8 → List Event
  | _, [] => []
  | r, byte :: rest =>
    r.headerEvents httparse onHeaders byte ++
      match r.headerByte httparse onHeaders byte with
      | (r, .ok false) => scanEvents r rest
      | _ => []

/-- The operands of the subtraction in `buffer_body_and_leftover`, and the bytes it keeps. -/
def bodyEvents (r : HttpRequest) (data : List UInt8) : List Event :=
  [.kept (r.contentLength.getD 0) r.buffer.length
    (data.take (min data.length (r.contentLength.getD 0 - r.buffer.length)))]

def ingestEvents (r : HttpRequest) (data : List UInt8) : List Event :=
  if r.complete then []
  else if r.headersComplete then r.bodyEvents data
  else
    r.scanEvents httparse onHeaders data ++
      match r.ingestHeaders httparse onHeaders data with
      | (_, .error _) => []
      | (r, .ok rest) => if r.headersComplete then r.bodyEvents rest else []

/-- A call, logged. A request with a latched error does nothing. -/
def feed (r : HttpRequest) (call : Feed) : HttpRequest × List Event :=
  ((r.addDataWithBodyLimit httparse call.onHeaders call.data).1,
    (if r.error.isSome then [] else r.ingestEvents httparse call.onHeaders call.data) ++
      [.returned (r.addDataWithBodyLimit httparse call.onHeaders call.data).2])

end Log

variable {httparse : Httparse} {onHeaders : Request → Except ProtocolError Nat}
  {r : HttpRequest} {log : List Event}

theorem length_normalizeLine (line : List UInt8) : (normalizeLine line).length = line.length := by
  unfold normalizeLine
  split
  · rename_i ends
    have long := (List.isSuffixOf_iff_suffix.mp ends).length_le
    have nine : (Utf8.encode " RTSP/1.0").length = 9 := by decide
    have four : (Utf8.encode "HTTP").length = 4 := by decide
    simp only [List.length_append, List.length_take, List.length_drop, four]
    omega
  · rfl

theorem length_normalizeRequestVersion (r : HttpRequest) :
    r.normalizeRequestVersion.buffer.length = r.buffer.length := by
  unfold normalizeRequestVersion
  split
  · rfl
  · rename_i start _
    have inside : ((r.buffer.drop start).takeWhile (· ≠ lf)).length ≤ r.buffer.length - start :=
      List.length_drop (l := r.buffer) ▸ (List.takeWhile_prefix _).length_le
    dsimp only
    split
    · rename_i ends
      have nonempty : 0 < ((r.buffer.drop start).takeWhile (· ≠ lf)).length :=
        List.length_pos_iff.mpr fun empty => by
          rw [empty] at ends
          cases ends
      simp only [List.length_append, length_normalizeLine, List.length_take, List.length_drop,
        List.length_dropLast, List.length_singleton]
      omega
    · simp only [List.length_append, length_normalizeLine, List.length_take, List.length_drop,
        List.length_nil]
      omega

/-- A parse attempt leaves the buffer as long as it was, or clears it at the end of the headers. -/
theorem tryParseHeaders_buffer (httparse : Httparse) (scanning : r.headersComplete = false) :
    (r.tryParseHeaders httparse).1.body = r.body ∧
      ((r.tryParseHeaders httparse).2 = .ok true ∧
          (r.tryParseHeaders httparse).1.headersComplete = true ∧
          (r.tryParseHeaders httparse).1.buffer = [] ∨
        (r.tryParseHeaders httparse).2 ≠ .ok true ∧
          (r.tryParseHeaders httparse).1.headersComplete = false ∧
          (r.tryParseHeaders httparse).1.buffer.length = r.buffer.length) := by
  have flags := (normalizeRequestVersion_flags r).1.trans scanning
  have length := length_normalizeRequestVersion r
  have body : r.normalizeRequestVersion.body = r.body := by
    unfold normalizeRequestVersion
    split <;> rfl
  simp only [tryParseHeaders]
  split
  · exact ⟨body, .inr ⟨by simp, flags, length⟩⟩
  · exact ⟨body, .inr ⟨by simp, flags, length⟩⟩
  · split
    · exact ⟨body, .inr ⟨by simp, flags, length⟩⟩
    · split
      · exact ⟨body, .inr ⟨by simp, flags, length⟩⟩
      · exact ⟨body, .inl ⟨rfl, rfl, rfl⟩⟩

/-- The policy decides on a request whose headers are complete. -/
def decided {α : Type} (r : HttpRequest) (answer : Except ProtocolError Nat) (a : α) :
    Except ProtocolError α :=
  match answer with
  | .error e => .error e
  | .ok limit =>
    if min limit maxBodyBytes < r.contentLength.getD 0 then
      .error (.invalidRtsp "request body exceeds connection policy")
    else .ok a

theorem decided_cases {α : Type} (r : HttpRequest) (answer : Except ProtocolError Nat) (a : α) :
    (∃ e, r.decided answer a = .error e) ∨
      ∃ limit, answer = .ok limit ∧ r.contentLength.getD 0 ≤ min limit maxBodyBytes ∧
        r.decided answer a = .ok a := by
  cases answer with
  | error e => exact .inl ⟨e, rfl⟩
  | ok limit =>
    rw [decided]
    split
    · exact .inl ⟨_, rfl⟩
    · rename_i admits
      exact .inr ⟨limit, rfl, Nat.le_of_not_lt admits, rfl⟩

/-- The header bytes stored behind those that are buffered. -/
def pushes (r : HttpRequest) (count : Nat) : List Event :=
  (List.range' (r.buffer.length + 1) count).map .pushed

/-- What a scan of header bytes does under every policy: it stops in front of the end of the
headers, or it finds the end and the policy decides. -/
inductive Scan (httparse : Httparse) (r : HttpRequest) (data : List UInt8) : Prop
  | stops (s : HttpRequest) (count : Nat) (result : Except ProtocolError (List UInt8))
      (scanning : s.headersComplete = false) (length : s.buffer.length = r.buffer.length + count)
      (bound : r.buffer.length + count ≤ maxHeaderBytes) (complete : s.complete = r.complete)
      (body : s.body = r.body)
      (scan : ∀ onHeaders, r.ingestHeaders httparse onHeaders data = (s, result) ∧
        r.scanEvents httparse onHeaders data = r.pushes count)
  | consults (s : HttpRequest) (count : Nat) (rest : List UInt8) (found : s.headersComplete = true)
      (empty : s.buffer = []) (bound : r.buffer.length + count ≤ maxHeaderBytes)
      (complete : s.complete = r.complete) (body : s.body = r.body)
      (scan : ∀ onHeaders,
        r.ingestHeaders httparse onHeaders data = (s, s.decided (onHeaders s.toRequest) rest) ∧
        r.scanEvents httparse onHeaders data =
          r.pushes count ++ [.consulted s.toRequest (onHeaders s.toRequest)])

/-- The scan goes on behind a byte that does not end it. -/
theorem Scan.push {r s : HttpRequest} {byte : UInt8} {rest : List UInt8}
    (scan : Scan httparse s rest) (length : s.buffer.length = r.buffer.length + 1)
    (complete : s.complete = r.complete) (body : s.body = r.body)
    (first : ∀ onHeaders, r.headerByte httparse onHeaders byte = (s, .ok false) ∧
      r.headerEvents httparse onHeaders byte = [.pushed (r.buffer.length + 1)]) :
    Scan httparse r (byte :: rest) := by
  have joined (count : Nat) : r.pushes (count + 1) =
      .pushed (r.buffer.length + 1) :: s.pushes count := by
    rw [pushes, pushes, List.range'_succ, List.map_cons, length]
  cases scan with
  | stops t count result scanning length' bound complete' body' scan =>
    refine .stops t (count + 1) result scanning (by omega) (by omega) (complete'.trans complete)
      (body'.trans body) fun onHeaders => ?_
    rw [ingestHeaders, scanEvents, (first onHeaders).1, (first onHeaders).2, joined]
    exact ⟨(scan onHeaders).1, congrArg _ (scan onHeaders).2⟩
  | consults t count rest' found empty bound complete' body' scan =>
    refine .consults t (count + 1) rest' found empty (by omega) (complete'.trans complete)
      (body'.trans body) fun onHeaders => ?_
    rw [ingestHeaders, scanEvents, (first onHeaders).1, (first onHeaders).2, joined]
    exact ⟨(scan onHeaders).1, congrArg _ (scan onHeaders).2⟩

theorem scan (httparse : Httparse) (data : List UInt8) (scanning : r.headersComplete = false)
    (bound : r.buffer.length ≤ maxHeaderBytes) : Scan httparse r data := by
  induction data generalizing r with
  | nil => exact .stops r 0 (.ok []) scanning rfl bound rfl rfl fun _ => ⟨rfl, rfl⟩
  | cons byte rest ih =>
    by_cases full : r.buffer.length = maxHeaderBytes
    · refine .stops r 0 (.error (.invalidRtsp "request headers exceed 64 KiB")) scanning rfl
        bound rfl rfl fun onHeaders => ?_
      rw [ingestHeaders, scanEvents, headerByte, headerEvents, if_pos full, if_pos full]
      exact ⟨rfl, rfl⟩
    have length : (r.pushByte byte).buffer.length = r.buffer.length + 1 := by simp [pushByte]
    have parsed := tryParseHeaders_buffer httparse (r := r.pushByte byte) scanning
    have flags := (tryParseHeaders_complete httparse (r.pushByte byte)).1
    cases ends : (r.pushByte byte).atEmptyLine with
    | false =>
      have later : Scan httparse (r.pushByte byte) rest := ih scanning (by omega)
      refine later.push length rfl rfl fun onHeaders => ?_
      simp [headerByte, headerEvents, full, ends, length]
    | true =>
      cases attempt : (r.pushByte byte).tryParseHeaders httparse with
      | mk s result =>
        rw [attempt] at parsed flags
        obtain ⟨body, ⟨rfl, found, empty⟩ | ⟨unfinished, still, same⟩⟩ := parsed
        · refine .consults s 1 rest found empty (by omega) flags body fun onHeaders => ?_
          simp only [ingestHeaders, scanEvents, headerByte, headerEvents, if_neg full, ends,
            attempt, Bool.not_true, Bool.false_eq_true, if_false, decided, length]
          cases onHeaders s.toRequest with
          | error e => exact ⟨rfl, rfl⟩
          | ok limit =>
            by_cases large : min limit maxBodyBytes < s.contentLength.getD 0
            · simp only [if_pos large]
              exact ⟨trivial, rfl⟩
            · simp only [if_neg large]
              exact ⟨trivial, rfl⟩
        · have longer := same.trans length
          cases result with
          | error e =>
            refine .stops s 1 (.error e) still longer (by omega) flags body
              fun onHeaders => ?_
            simp [ingestHeaders, scanEvents, headerByte, headerEvents, full, ends, attempt,
              length, pushes]
          | ok complete =>
            cases complete with
            | true => exact absurd rfl unfinished
            | false =>
              refine (ih still (by omega)).push longer flags body fun onHeaders => ?_
              simp [headerByte, headerEvents, full, ends, attempt, length]

def latchedText : ProtocolError → String
  | .invalidRtsp message => message
  | e => e.toText

/-- What a call makes of a scan: an error is latched, and body bytes are taken behind the end of
the headers. -/
def concluded (s : HttpRequest) : Except ProtocolError (List UInt8) →
    (HttpRequest × Except ProtocolError Unit) × List Event
  | .error e => (({ s with error := some (latchedText e) }, .error e), [])
  | .ok rest =>
    if s.headersComplete then ((s.bufferBodyAndLeftover rest, .ok ()), s.bodyEvents rest)
    else ((s, .ok ()), [])

section Conclusion

variable {r s : HttpRequest} {data : List UInt8} {result : Except ProtocolError (List UInt8)}
  (clean : r.error = none) (incomplete : r.complete = false) (scanning : r.headersComplete = false)
  (scan : r.ingestHeaders httparse onHeaders data = (s, result))
include incomplete scanning scan

include clean in
theorem addDataWithBodyLimit_of_scan :
    r.addDataWithBodyLimit httparse onHeaders data = (s.concluded result).1 := by
  simp only [addDataWithBodyLimit, clean, ingest_of_scanning data incomplete scanning, scan]
  cases result with
  | error e => rfl
  | ok rest => cases found : s.headersComplete <;> simp [concluded, found]

theorem ingestEvents_of_scan :
    r.ingestEvents httparse onHeaders data =
      r.scanEvents httparse onHeaders data ++ (s.concluded result).2 := by
  simp only [ingestEvents, incomplete, scanning, Bool.false_eq_true, if_false, scan]
  cases result with
  | error e => rfl
  | ok rest => cases found : s.headersComplete <;> simp [concluded, found]

end Conclusion

/-- Before the policy answers, header bytes are stored within their bound. -/
def Event.Quiet : Event → Prop
  | .pushed length => length ≤ maxHeaderBytes
  | .returned _ => True
  | _ => False

/-- Behind an answer of the policy, body bytes are stored within the bound it gave. -/
def Event.Within (answer : Except ProtocolError Nat) : Event → Prop
  | .kept needed buffered bytes =>
    buffered ≤ needed ∧
      ∃ limit, answer = .ok limit ∧ buffered + bytes.length ≤ min limit maxBodyBytes
  | .returned _ => True
  | _ => False

/-- The policy answered once, and body bytes were stored behind its answer only. -/
def Consulted (answer : Except ProtocolError Nat) (log : List Event) : Prop :=
  ∃ before request after, log = before ++ .consulted request answer :: after ∧
    (∀ e ∈ before, e.Quiet) ∧ ∀ e ∈ after, e.Within answer

theorem Consulted.append {answer : Except ProtocolError Nat} {log events : List Event}
    (consulted : Consulted answer log) (within : ∀ e ∈ events, e.Within answer) :
    Consulted answer (log ++ events) := by
  obtain ⟨before, request, after, rfl, first, second⟩ := consulted
  refine ⟨before, request, after ++ events, by simp, first, ?_⟩
  intro e mem
  exact (List.mem_append.mp mem).elim (second e) (within e)

/-- The phases of a request, with the log of its calls. -/
inductive Phase (r : HttpRequest) (log : List Event) : Prop
  | scanning (incomplete : r.complete = false) (scanning : r.headersComplete = false)
      (unset : r.body = none) (bound : r.buffer.length ≤ maxHeaderBytes)
      (quiet : ∀ e ∈ log, e.Quiet)
  | refused (answer : Except ProtocolError Nat) (incomplete : r.complete = false)
      (found : r.headersComplete = true) (empty : r.buffer = []) (failed : r.error.isSome)
      (consulted : Consulted answer log)
  | body (limit : Nat) (incomplete : r.complete = false) (found : r.headersComplete = true)
      (unset : r.body = none) (fits : r.buffer.length ≤ r.contentLength.getD 0)
      (allowed : r.contentLength.getD 0 ≤ min limit maxBodyBytes)
      (consulted : Consulted (.ok limit) log)
  | complete (limit : Nat) (complete : r.complete = true) (consulted : Consulted (.ok limit) log)

theorem Phase.returned (phase : Phase r log) (result : Except ProtocolError Unit) :
    Phase r (log ++ [.returned result]) := by
  cases phase with
  | scanning incomplete scanning unset bound quiet =>
    refine .scanning incomplete scanning unset bound ?_
    intro e mem
    rcases List.mem_append.mp mem with old | new
    · exact quiet e old
    · rw [List.mem_singleton.mp new]
      trivial
  | refused answer incomplete found empty failed consulted =>
    exact .refused answer incomplete found empty failed (consulted.append (by simp [Event.Within]))
  | body limit incomplete found unset fits allowed consulted =>
    exact .body limit incomplete found unset fits allowed
      (consulted.append (by simp [Event.Within]))
  | complete limit complete consulted =>
    exact .complete limit complete (consulted.append (by simp [Event.Within]))

/-- Body bytes are stored up to the declared length, which the policy has admitted. -/
theorem bufferBodyAndLeftover_phase {limit : Nat}
    (data : List UInt8) (incomplete : r.complete = false) (found : r.headersComplete = true)
    (unset : r.body = none) (fits : r.buffer.length ≤ r.contentLength.getD 0)
    (allowed : r.contentLength.getD 0 ≤ min limit maxBodyBytes)
    (consulted : Consulted (.ok limit) log) :
    Phase (r.bufferBodyAndLeftover data) (log ++ r.bodyEvents data) := by
  have logged : Consulted (.ok limit) (log ++ r.bodyEvents data) := by
    refine consulted.append ?_
    intro e mem
    rw [List.mem_singleton.mp mem]
    refine ⟨fits, limit, rfl, ?_⟩
    rw [List.length_take]
    omega
  by_cases short : r.buffer.length + data.length < r.contentLength.getD 0
  · rw [bufferBodyAndLeftover_of_short short]
    refine .body limit incomplete found unset ?_ allowed logged
    rw [List.length_append]
    exact short.le
  · rw [bufferBodyAndLeftover_of_enough fits (by omega)]
    exact .complete limit rfl logged

/-- The scan of a call, the error it may latch, and the body bytes behind the headers. -/
theorem ingest_phase_scanning (data : List UInt8) (clean : r.error = none)
    (incomplete : r.complete = false) (scanning : r.headersComplete = false) (unset : r.body = none)
    (bound : r.buffer.length ≤ maxHeaderBytes) (quiet : ∀ e ∈ log, e.Quiet) :
    Phase (r.addDataWithBodyLimit httparse onHeaders data).1
      (log ++ r.ingestEvents httparse onHeaders data) := by
  have pushed {count : Nat} (bound : r.buffer.length + count ≤ maxHeaderBytes) :
      ∀ e ∈ log ++ r.pushes count, e.Quiet := by
    rw [List.forall_mem_append]
    refine ⟨quiet, ?_⟩
    simp only [pushes, List.forall_mem_map, List.mem_range'_1]
    intro length inside
    show length ≤ maxHeaderBytes
    omega
  cases scan httparse data scanning bound with
  | stops s count result scanning' length bound complete body scan =>
    have stored : s.buffer.length ≤ maxHeaderBytes := by omega
    rw [addDataWithBodyLimit_of_scan clean incomplete scanning (scan onHeaders).1,
      ingestEvents_of_scan incomplete scanning (scan onHeaders).1, (scan onHeaders).2,
      ← List.append_assoc]
    cases result with
    | error e =>
      rw [concluded, List.append_nil]
      exact .scanning (complete.trans incomplete) scanning' (body.trans unset) stored (pushed bound)
    | ok rest =>
      rw [concluded, if_neg (by simp [scanning']), List.append_nil]
      exact .scanning (complete.trans incomplete) scanning' (body.trans unset) stored (pushed bound)
  | consults s count rest found empty bound complete body scan =>
    have consulted : Consulted (onHeaders s.toRequest) (log ++
        (r.pushes count ++ [.consulted s.toRequest (onHeaders s.toRequest)])) := by
      rw [← List.append_assoc]
      exact ⟨_, _, [], rfl, pushed bound, by simp⟩
    rw [addDataWithBodyLimit_of_scan clean incomplete scanning (scan onHeaders).1,
      ingestEvents_of_scan incomplete scanning (scan onHeaders).1, (scan onHeaders).2,
      ← List.append_assoc]
    rcases decided_cases s (onHeaders s.toRequest) rest with
      ⟨e, refused⟩ | ⟨limit, answer, allowed, admitted⟩
    · rw [refused, concluded, List.append_nil]
      exact .refused _ (complete.trans incomplete) found empty rfl consulted
    · rw [admitted, concluded, if_pos found]
      rw [answer] at consulted ⊢
      exact bufferBodyAndLeftover_phase rest (complete.trans incomplete) found
        (body.trans unset) (by simp [empty]) allowed consulted

theorem feed_phase (r : HttpRequest) (log : List Event) (call : Feed) (phase : Phase r log) :
    Phase (r.feed httparse call).1 (log ++ (r.feed httparse call).2) := by
  rw [feed, ← List.append_assoc]
  refine Phase.returned ?_ _
  cases latched : r.error with
  | some message => simpa [addDataWithBodyLimit, latched] using phase
  | none =>
    simp only [Option.isSome_none, Bool.false_eq_true, if_false]
    cases phase with
    | scanning incomplete scanning unset bound quiet =>
      exact ingest_phase_scanning call.data latched incomplete scanning unset bound quiet
    | refused _ _ _ _ failed => simp [latched] at failed
    | body limit incomplete found unset fits allowed consulted =>
      simp only [addDataWithBodyLimit, latched, ingest_of_headersComplete _ incomplete found]
      simp only [ingestEvents, incomplete, found, Bool.false_eq_true, if_false, if_true]
      exact bufferBodyAndLeftover_phase call.data incomplete found unset fits allowed consulted
    | complete limit complete consulted =>
      simp only [addDataWithBodyLimit, latched, ingest_of_complete _ complete]
      simp only [ingestEvents, complete, if_true, List.append_nil]
      exact .complete limit rfl consulted

theorem run_phase (httparse : Httparse) (calls : List Feed) :
    Phase (run (feed httparse) {} calls).1 (run (feed httparse) {} calls).2 := by
  have start : Phase {} ([] : List Event) := .scanning rfl rfl rfl (Nat.zero_le _) (by simp)
  exact run_history (s := {}) feed_phase start calls

theorem Event.Quiet.answer? {e : Event} (quiet : e.Quiet) : e.answer? = none := by
  cases e with
  | consulted => exact quiet.elim
  | _ => rfl

theorem Event.Quiet.stored {e : Event} (quiet : e.Quiet) : e.stored = [] := by
  cases e with
  | kept => exact quiet.elim
  | _ => rfl

theorem Event.Within.answer? {e : Event} {answer : Except ProtocolError Nat}
    (within : e.Within answer) : e.answer? = none := by
  cases e with
  | consulted => exact within.elim
  | _ => rfl

theorem Phase.quiet_or_consulted (phase : Phase r log) :
    (∀ e ∈ log, e.Quiet) ∨ ∃ answer, Consulted answer log := by
  cases phase with
  | scanning _ _ _ _ quiet => exact .inl quiet
  | refused answer _ _ _ _ consulted => exact .inr ⟨answer, consulted⟩
  | body limit _ _ _ _ _ consulted => exact .inr ⟨.ok limit, consulted⟩
  | complete limit _ consulted => exact .inr ⟨.ok limit, consulted⟩

theorem Consulted.mem {answer : Except ProtocolError Nat} (consulted : Consulted answer log) :
    ∃ request, .consulted request answer ∈ log := by
  obtain ⟨before, request, after, rfl, -, -⟩ := consulted
  exact ⟨request, by simp⟩

theorem Phase.pushed (phase : Phase r log) {length : Nat} (mem : .pushed length ∈ log) :
    length ≤ maxHeaderBytes := by
  rcases phase.quiet_or_consulted with quiet | ⟨answer, before, request, after, rfl, quiet, within⟩
  · exact quiet _ mem
  · rcases List.mem_append.mp mem with early | late
    · exact quiet _ early
    · exact (within _ ((List.mem_cons.mp late).resolve_left (by simp))).elim

theorem Phase.kept (phase : Phase r log)
    {needed buffered : Nat} {bytes : List UInt8} (mem : .kept needed buffered bytes ∈ log) :
    buffered ≤ needed ∧ ∃ request limit, .consulted request (.ok limit) ∈ log ∧
      buffered + bytes.length ≤ min limit maxBodyBytes := by
  rcases phase.quiet_or_consulted with quiet | ⟨answer, before, request, after, rfl, quiet, within⟩
  · exact (quiet _ mem).elim
  · rcases List.mem_append.mp mem with early | late
    · exact (quiet _ early).elim
    · obtain ⟨fits, limit, rfl, bound⟩ :=
        within _ ((List.mem_cons.mp late).resolve_left (by simp))
      exact ⟨fits, request, limit, by simp, bound⟩

theorem Phase.answers (phase : Phase r log) : (log.filterMap Event.answer?).length ≤ 1 := by
  rcases phase.quiet_or_consulted with quiet | ⟨answer, before, request, after, rfl, quiet, within⟩
  · rw [List.filterMap_eq_nil_iff.mpr fun e mem => (quiet e mem).answer?]
    exact Nat.zero_le 1
  · rw [List.filterMap_append, List.filterMap_cons,
      List.filterMap_eq_nil_iff.mpr fun e mem => (quiet e mem).answer?,
      List.filterMap_eq_nil_iff.mpr fun e mem => (within e mem).answer?]
    exact le_rfl

theorem Phase.stored (phase : Phase r log) :
    log.Pairwise fun earlier later => later.answer?.isSome → earlier.stored = [] := by
  rcases phase.quiet_or_consulted with quiet | ⟨answer, before, request, after, rfl, quiet, within⟩
  · refine List.pairwise_of_forall_mem_list ?_
    intro earlier mem _ _ _
    exact (quiet earlier mem).stored
  · refine List.pairwise_append.mpr ⟨?_, List.pairwise_cons.mpr ⟨?_, ?_⟩, ?_⟩
    · refine List.pairwise_of_forall_mem_list ?_
      intro earlier mem _ _ _
      exact (quiet earlier mem).stored
    · intro _ _ _
      rfl
    · refine List.pairwise_of_forall_mem_list ?_
      intro _ _ later mem answered
      simp [(within later mem).answer?] at answered
    · intro earlier mem _ _ _
      exact (quiet earlier mem).stored

theorem feed_latches {call : Feed} {error : ProtocolError}
    (failed : (r.addDataWithBodyLimit httparse call.onHeaders call.data).2 = .error error) :
    ∃ message, (r.feed httparse call).1.error = some message := by
  revert failed
  simp only [feed, addDataWithBodyLimit]
  split
  · rename_i message latched
    intro _
    exact ⟨message, latched⟩
  · split
    · rintro ⟨⟩
    · intro _
      exact ⟨_, rfl⟩

/-- A latched error answers every call and nothing changes any more. -/
theorem run_latched {message : String} (latched : r.error = some message) (calls : List Feed) :
    run (feed httparse) r calls =
      (r, calls.map fun _ => .returned (.error (.invalidRtsp message))) := by
  have call : ∀ call, r.feed httparse call = (r, [.returned (.error (.invalidRtsp message))]) := by
    intro call
    simp [feed, addDataWithBodyLimit, latched]
  induction calls with
  | nil => rfl
  | cons first calls ih =>
    rw [run_cons, call first, ih]
    rfl

/-- What the parser retains of the body. -/
def retained (r : HttpRequest) : List UInt8 :=
  if r.complete then r.body.getD [] else if r.headersComplete then r.buffer else []

/-- The log of a call says what the call did. The call depends on the policy by the logged answers
only, and it ends with the error if the policy refuses a logged request. What it adds to the
retained body are the logged bytes, and a subtraction is logged with the declared length and the
number of bytes retained before. Header bytes are counted one by one. -/
structure Faithful (httparse : Httparse) (r : HttpRequest) (call : Feed) : Prop where
  consults : ∀ onHeaders : Request → Except ProtocolError Nat,
    (∀ request answer, .consulted request answer ∈ (r.feed httparse call).2 →
      onHeaders request = answer) →
    r.addDataWithBodyLimit httparse onHeaders call.data =
      r.addDataWithBodyLimit httparse call.onHeaders call.data
  answers : ∀ request answer, .consulted request answer ∈ (r.feed httparse call).2 →
    call.onHeaders request = answer ∧
      ∀ (onHeaders : Request → Except ProtocolError Nat) (error : ProtocolError),
        onHeaders request = .error error →
        (r.addDataWithBodyLimit httparse onHeaders call.data).2 = .error error
  stores : (r.feed httparse call).1.retained =
    r.retained ++ (r.feed httparse call).2.flatMap Event.stored
  operands : ∀ needed buffered bytes, .kept needed buffered bytes ∈ (r.feed httparse call).2 →
    needed = (r.feed httparse call).1.contentLength.getD 0 ∧ buffered = r.retained.length
  pushes : ∃ count, (r.feed httparse call).2.filterMap Event.length? =
      List.range' (r.buffer.length + 1) count ∧
    ((r.feed httparse call).1.complete = false → (r.feed httparse call).1.headersComplete = false →
      (r.feed httparse call).1.buffer.length = r.buffer.length + count)

section Faithful

variable {data : List UInt8}

/-- The bytes that a call takes are retained behind those that were there. -/
theorem retained_bufferBodyAndLeftover (reading : r.complete = false)
    (found : r.headersComplete = true) (unset : r.body = none) :
    (r.bufferBodyAndLeftover data).retained =
        r.buffer ++ data.take (min data.length (r.contentLength.getD 0 - r.buffer.length)) ∧
      (r.bufferBodyAndLeftover data).contentLength = r.contentLength ∧
      (r.bufferBodyAndLeftover data).headersComplete = true := by
  simp only [bufferBodyAndLeftover]
  split
  · rename_i enough
    split
    · exact ⟨rfl, rfl, found⟩
    · rename_i zero
      refine ⟨?_, rfl, found⟩
      rw [not_not.mp zero, List.length_eq_zero_iff, List.append_eq_nil_iff] at enough
      simp [retained, unset, not_not.mp zero, enough.1]
  · exact ⟨by simp [retained, reading, found], rfl, found⟩

/-- A call that finds nothing of the headers to scan does not look at the policy. -/
theorem faithful_of_complete {call : Feed} (clean : r.error = none) (complete : r.complete = true) :
    Faithful httparse r call := by
  have called (onHeaders : Request → Except ProtocolError Nat) :
      r.addDataWithBodyLimit httparse onHeaders call.data =
        ({ r with buffer := r.buffer ++ call.data }, .ok ()) := by
    simp [addDataWithBodyLimit, clean, ingest_of_complete call.data complete]
  have logged : r.feed httparse call =
      ({ r with buffer := r.buffer ++ call.data }, [.returned (.ok ())]) := by
    simp [feed, called, clean, ingestEvents, complete]
  refine ⟨fun _ _ => by rw [called, called], ?_, ?_, ?_, ⟨0, ?_, ?_⟩⟩ <;> rw [logged]
  · simp
  · simp [retained, complete, Event.stored]
  · simp
  · rfl
  · simp [complete]

theorem faithful_of_latched {call : Feed} {message : String} (latched : r.error = some message) :
    Faithful httparse r call := by
  have called (onHeaders : Request → Except ProtocolError Nat) :
      r.addDataWithBodyLimit httparse onHeaders call.data = (r, .error (.invalidRtsp message)) := by
    simp [addDataWithBodyLimit, latched]
  have logged : r.feed httparse call = (r, [.returned (.error (.invalidRtsp message))]) := by
    simp [feed, called, latched]
  refine ⟨fun _ _ => by rw [called, called], ?_, ?_, ?_, ⟨0, ?_, ?_⟩⟩ <;> rw [logged]
  · simp
  · simp [Event.stored]
  · simp
  · rfl
  · simp

theorem faithful_of_reading {call : Feed} (clean : r.error = none) (reading : r.complete = false)
    (found : r.headersComplete = true) (unset : r.body = none) : Faithful httparse r call := by
  have called (onHeaders : Request → Except ProtocolError Nat) :
      r.addDataWithBodyLimit httparse onHeaders call.data =
        (r.bufferBodyAndLeftover call.data, .ok ()) := by
    simp [addDataWithBodyLimit, clean, ingest_of_headersComplete call.data reading found]
  have logged : r.feed httparse call =
      (r.bufferBodyAndLeftover call.data, r.bodyEvents call.data ++ [.returned (.ok ())]) := by
    simp [feed, called, clean, ingestEvents, reading, found]
  have before : r.retained = r.buffer := by simp [retained, reading, found]
  obtain ⟨after, length, headers⟩ :=
    @retained_bufferBodyAndLeftover r call.data reading found unset
  refine ⟨fun _ _ => by rw [called, called], ?_, ?_, ?_, ⟨0, ?_, ?_⟩⟩ <;> rw [logged]
  · simp [bodyEvents]
  · rw [after, before]
    simp [bodyEvents, Event.stored]
  · intro needed buffered bytes mem
    obtain ⟨rfl, rfl, -⟩ : needed = r.contentLength.getD 0 ∧ buffered = r.buffer.length ∧
        bytes = _ := by simpa [bodyEvents] using mem
    rw [length, before]
    exact ⟨rfl, rfl⟩
  · rfl
  · simp [headers]

/-- What a scan retains are the bytes it takes for the body, from the first one on. -/
theorem retained_concluded {s : HttpRequest} (reading : s.complete = false)
    (nothing : s.headersComplete = true → s.buffer = []) (unset : s.body = none)
    (result : Except ProtocolError (List UInt8)) :
    (s.concluded result).1.1.retained = (s.concluded result).2.flatMap Event.stored ∧
      (∀ needed buffered bytes, .kept needed buffered bytes ∈ (s.concluded result).2 →
        needed = (s.concluded result).1.1.contentLength.getD 0 ∧ buffered = 0) ∧
      (∀ e ∈ (s.concluded result).2, e.answer? = none ∧ e.length? = none) ∧
      (s.concluded result).1.1.headersComplete = s.headersComplete ∧
      (s.headersComplete = false → (s.concluded result).1.1.buffer = s.buffer) := by
  have empty : s.retained = [] := by
    cases found : s.headersComplete with
    | false => simp [retained, reading, found]
    | true => simp [retained, reading, found, nothing found]
  cases result with
  | error e => exact ⟨empty, by simp [concluded], by simp [concluded], rfl, fun _ => rfl⟩
  | ok rest =>
    rw [concluded]
    cases found : s.headersComplete with
    | false => exact ⟨empty, by simp, by simp, found, fun _ => rfl⟩
    | true =>
      obtain ⟨after, length, headers⟩ :=
        @retained_bufferBodyAndLeftover s rest reading found unset
      rw [if_pos rfl]
      refine ⟨?_, ?_, by simp [bodyEvents, Event.answer?, Event.length?], headers, by simp⟩
      · rw [after, nothing found]
        simp [bodyEvents, Event.stored, nothing found]
      · intro needed buffered bytes mem
        obtain ⟨rfl, rfl, -⟩ : needed = s.contentLength.getD 0 ∧ buffered = s.buffer.length ∧
            bytes = _ := by simpa [bodyEvents] using mem
        rw [length, nothing found]
        exact ⟨rfl, rfl⟩

theorem mem_of_mem_logged {e : Event} {count : Nat} {events : List Event}
    {result : Except ProtocolError Unit} (other : e.length? = none) (goesOn : e ≠ .returned result)
    (mem : e ∈ r.pushes count ++ events ++ [.returned result]) : e ∈ events := by
  rcases List.mem_append.mp mem with before | last
  · rcases List.mem_append.mp before with pushed | inside
    · obtain ⟨length, -, rfl⟩ := List.mem_map.mp pushed
      cases other
    · exact inside
  · exact absurd (List.mem_singleton.mp last) goesOn

/-- The call that scans the headers consults the policy behind them. -/
theorem faithful_of_scanning {call : Feed} (clean : r.error = none) (reading : r.complete = false)
    (scanning : r.headersComplete = false) (bound : r.buffer.length ≤ maxHeaderBytes)
    (unset : r.body = none) : Faithful httparse r call := by
  have before : r.retained = [] := by simp [retained, reading, scanning]
  have quiet (count : Nat) : (r.pushes count).flatMap Event.stored = [] ∧
      (r.pushes count).filterMap Event.length? = List.range' (r.buffer.length + 1) count := by
    rw [pushes, List.flatMap_map, List.filterMap_map]
    exact ⟨List.flatMap_eq_nil_iff.mpr fun _ _ => rfl, List.filterMap_some⟩
  have logged {s : HttpRequest} {result : Except ProtocolError (List UInt8)}
      (scan : r.ingestHeaders httparse call.onHeaders call.data = (s, result)) :
      r.feed httparse call = ((s.concluded result).1.1,
        r.scanEvents httparse call.onHeaders call.data ++ (s.concluded result).2 ++
          [.returned (s.concluded result).1.2]) := by
    rw [feed, addDataWithBodyLimit_of_scan clean reading scanning scan,
      ingestEvents_of_scan reading scanning scan, clean]
    rfl
  cases scan httparse call.data scanning bound with
  | stops s count result scanning' length bound complete body scan =>
    have called (onHeaders : Request → Except ProtocolError Nat) :=
      addDataWithBodyLimit_of_scan clean reading scanning (scan onHeaders).1
    obtain ⟨after, operands, silent, -, buffer⟩ := retained_concluded
      (complete.trans reading) (by simp [scanning']) (body.trans unset) result
    refine ⟨fun onHeaders _ => by rw [called, called], ?_, ?_, ?_, ⟨count, ?_, ?_⟩⟩ <;>
      rw [logged (scan _).1, (scan _).2]
    · intro request answer mem
      cases (silent _ (mem_of_mem_logged rfl (by simp) mem)).1
    · rw [before, List.flatMap_append, List.flatMap_append, (quiet count).1, after]
      exact (List.append_nil _).symm
    · intro needed buffered bytes mem
      rw [before]
      exact operands needed buffered bytes (mem_of_mem_logged rfl (by simp) mem)
    · rw [List.filterMap_append, List.filterMap_append, (quiet count).2,
        List.filterMap_eq_nil_iff.mpr fun e mem => (silent e mem).2]
      simp [Event.length?]
    · intro _ _
      rw [buffer scanning', length]
  | consults s count rest found empty bound complete body scan =>
    have called (onHeaders : Request → Except ProtocolError Nat) :=
      addDataWithBodyLimit_of_scan clean reading scanning (scan onHeaders).1
    obtain ⟨after, operands, silent, headers, -⟩ := retained_concluded
      (complete.trans reading) (fun _ => empty) (body.trans unset)
      (s.decided (call.onHeaders s.toRequest) rest)
    refine ⟨fun onHeaders agrees => ?_, ?_, ?_, ?_, ⟨count, ?_, ?_⟩⟩
    · rw [logged (scan _).1, (scan _).2] at agrees
      rw [called, called, agrees s.toRequest (call.onHeaders s.toRequest) (by simp)]
    all_goals rw [logged (scan _).1, (scan _).2, List.append_assoc (r.pushes count)]
    · intro request answer mem
      obtain ⟨rfl, rfl⟩ := Event.consulted.inj
        ((List.mem_cons.mp (mem_of_mem_logged rfl (by simp) mem)).resolve_right fun late => by
          cases (silent _ late).1)
      refine ⟨rfl, fun onHeaders error refuses => ?_⟩
      rw [called, refuses]
      rfl
    · rw [before, List.flatMap_append, List.flatMap_append, List.flatMap_append, (quiet count).1,
        after]
      simp [Event.stored]
    · intro needed buffered bytes mem
      have late := (List.mem_cons.mp (mem_of_mem_logged rfl (by simp) mem)).resolve_left (by simp)
      rw [before]
      exact operands needed buffered bytes late
    · rw [List.filterMap_append, List.filterMap_append, List.filterMap_append, (quiet count).2,
        List.filterMap_eq_nil_iff.mpr fun e mem => (silent e mem).2]
      simp [Event.length?]
    · intro _ unfinished
      rw [headers, found] at unfinished
      cases unfinished

/-- Every call of a request is logged faithfully. -/
theorem run_faithful (httparse : Httparse) (calls : List Feed) (call : Feed) :
    Faithful httparse (run (feed httparse) {} calls).1 call := by
  have phase := run_phase httparse calls
  generalize (run (feed httparse) {} calls).1 = r at phase
  cases latched : r.error with
  | some message => exact faithful_of_latched latched
  | none =>
    cases phase with
    | scanning reading scanning unset bound =>
      exact faithful_of_scanning latched reading scanning bound unset
    | refused _ _ _ _ failed => simp [latched] at failed
    | body _ reading found unset => exact faithful_of_reading latched reading found unset
    | complete _ complete => exact faithful_of_complete latched complete

end Faithful

/-- The limits of the parser over every sequence of calls, each with a policy of its own.
The header buffer keeps to 64 KiB and the retained body to the policy and to 32 MiB; the policy
is consulted once, before body bytes are stored; the subtraction of buffered from needed bytes
does not underflow; after a failed call every call fails and changes nothing. The log that shows
this is faithful to every call. -/
theorem parser_limits (httparse : Httparse) (calls : List Feed) :
    let reached := run (feed httparse) {} calls
    (reached.1.complete = false →
      (reached.1.headersComplete = false → reached.1.buffer.length ≤ maxHeaderBytes) ∧
      (reached.1.headersComplete = true →
        reached.1.buffer = [] ∨
          ∃ request limit, .consulted request (.ok limit) ∈ reached.2 ∧
            reached.1.buffer.length ≤ min limit maxBodyBytes)) ∧
    (∀ length, .pushed length ∈ reached.2 → length ≤ maxHeaderBytes) ∧
    (∀ needed buffered bytes, .kept needed buffered bytes ∈ reached.2 →
      buffered ≤ needed ∧
        ∃ request limit, .consulted request (.ok limit) ∈ reached.2 ∧
          buffered + bytes.length ≤ min limit maxBodyBytes) ∧
    (reached.2.filterMap Event.answer?).length ≤ 1 ∧
    reached.2.Pairwise (fun earlier later => later.answer?.isSome → earlier.stored = []) ∧
    (∀ call later error,
      (reached.1.addDataWithBodyLimit httparse call.onHeaders call.data).2 = .error error →
        ∃ message, run (feed httparse) (reached.1.feed httparse call).1 later =
          ((reached.1.feed httparse call).1,
            later.map fun _ => .returned (.error (.invalidRtsp message)))) ∧
    ∀ call, Faithful httparse reached.1 call := by
  intro reached
  have phase : Phase reached.1 reached.2 := run_phase httparse calls
  refine ⟨?_, fun _ => phase.pushed, fun _ _ _ => phase.kept, phase.answers, phase.stored, ?_,
    run_faithful httparse calls⟩
  · intro incomplete
    cases phase with
    | scanning _ scanning _ bound _ =>
      exact ⟨fun _ => bound, fun found => by simp [scanning] at found⟩
    | refused _ _ found empty _ _ =>
      exact ⟨fun scanning => by simp [found] at scanning, fun _ => .inl empty⟩
    | body limit _ found _ fits allowed consulted =>
      obtain ⟨request, mem⟩ := consulted.mem
      exact ⟨fun scanning => by simp [found] at scanning,
        fun _ => .inr ⟨request, limit, mem, fits.trans allowed⟩⟩
    | complete _ complete _ => simp [complete] at incomplete
  · intro call later error failed
    obtain ⟨message, latched⟩ := feed_latches failed
    exact ⟨message, run_latched latched later⟩

end Shairplay.Proto.HttpRequest
