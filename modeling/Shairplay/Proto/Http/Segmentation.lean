import Shairplay.Proto.Http

/-!
# Read boundaries do not matter to the request parser

Feeding two pieces one after the other leaves the parser in the same state as feeding
them at once. The header scan commutes byte by byte; the body is copied in bulk, so
there the argument is about the counted bytes; a complete request only collects.
-/

namespace Shairplay.Proto.HttpRequest

variable {httparse : Httparse} {onHeaders : Request → Except ProtocolError Nat}
  {r : HttpRequest}

@[simp] theorem normalizeRequestVersion_flags (r : HttpRequest) :
    r.normalizeRequestVersion.headersComplete = r.headersComplete ∧
      r.normalizeRequestVersion.complete = r.complete ∧
      r.normalizeRequestVersion.error = r.error := by
  unfold normalizeRequestVersion
  split <;> exact ⟨rfl, rfl, rfl⟩

theorem tryParseHeaders_complete (httparse : Httparse) (r : HttpRequest) :
    (r.tryParseHeaders httparse).1.complete = r.complete ∧
      (r.tryParseHeaders httparse).1.error = r.error := by
  simp only [tryParseHeaders]
  split
  · simp
  · simp
  · split
    · simp
    · split <;> simp

/-- The headers are marked complete exactly when the attempt reports so. -/
theorem tryParseHeaders_headersComplete {done : Bool}
    (h : (r.tryParseHeaders httparse).2 = .ok done) (scanning : r.headersComplete = false) :
    (r.tryParseHeaders httparse).1.headersComplete = done := by
  revert h
  simp only [tryParseHeaders]
  split
  · rintro ⟨⟩
    simpa using scanning
  · rintro ⟨⟩
  · split
    · rintro ⟨⟩
    · split
      · rintro ⟨⟩
      · rintro ⟨⟩
        rfl

theorem headerByte_complete (httparse : Httparse)
    (onHeaders : Request → Except ProtocolError Nat) (r : HttpRequest) (byte : UInt8) :
    (r.headerByte httparse onHeaders byte).1.complete = r.complete ∧
      (r.headerByte httparse onHeaders byte).1.error = r.error := by
  have parsed := tryParseHeaders_complete httparse (r.pushByte byte)
  unfold headerByte
  split
  · exact ⟨rfl, rfl⟩
  · dsimp only
    split
    · exact ⟨rfl, rfl⟩
    · split
      · simp_all [pushByte]
      · simp_all [pushByte]
      · split
        · simp_all [pushByte]
        · split <;> simp_all [pushByte]

theorem headerByte_headersComplete {byte : UInt8} (done : Bool)
    (h : (r.headerByte httparse onHeaders byte).2 = .ok done)
    (scanning : r.headersComplete = false) :
    (r.headerByte httparse onHeaders byte).1.headersComplete = done := by
  have parsed : ∀ d, ((r.pushByte byte).tryParseHeaders httparse).2 = .ok d →
      ((r.pushByte byte).tryParseHeaders httparse).1.headersComplete = d :=
    fun d hd => tryParseHeaders_headersComplete hd scanning
  revert h
  unfold headerByte
  split
  · rintro ⟨⟩
  · dsimp only
    split
    · rintro ⟨⟩
      exact scanning
    · split
      · rintro ⟨⟩
      · rename_i result
        rintro ⟨⟩
        simpa [result] using parsed false (by rw [result])
      · rename_i result
        split
        · rintro ⟨⟩
        · split
          · rintro ⟨⟩
          · rintro ⟨⟩
            simpa [result] using parsed true (by rw [result])

/-- A scan that ended well either found the end of the headers or used up its input. -/
theorem ingestHeaders_ok {r r' : HttpRequest} {data rest : List UInt8}
    (h : r.ingestHeaders httparse onHeaders data = (r', .ok rest))
    (scanning : r.headersComplete = false) :
    r'.complete = r.complete ∧ r'.error = r.error ∧
      (r'.headersComplete = true ∧ rest.length < data.length ∨
        r'.headersComplete = false ∧ rest = []) := by
  induction data generalizing r with
  | nil =>
    cases h
    exact ⟨rfl, rfl, .inr ⟨scanning, rfl⟩⟩
  | cons byte data ih =>
    have flags := headerByte_complete httparse onHeaders r byte
    rw [ingestHeaders] at h
    split at h
    · cases h
    · rename_i s round
      cases h
      have done := headerByte_headersComplete true (by rw [round]) scanning
      rw [round] at flags done
      exact ⟨flags.1, flags.2, .inl ⟨done, by simp⟩⟩
    · rename_i s round
      have done := headerByte_headersComplete false (by rw [round]) scanning
      rw [round] at flags done
      obtain ⟨complete, error, result⟩ := ih h done
      refine ⟨complete.trans flags.1, error.trans flags.2, result.imp ?_ id⟩
      rintro ⟨found, shorter⟩
      exact ⟨found, shorter.trans (by simp)⟩

theorem ingestHeaders_error {r r' : HttpRequest} {data : List UInt8} {e : ProtocolError}
    (h : r.ingestHeaders httparse onHeaders data = (r', .error e)) :
    r'.complete = r.complete ∧ r'.error = r.error := by
  induction data generalizing r with
  | nil => cases h
  | cons byte data ih =>
    have flags := headerByte_complete httparse onHeaders r byte
    rw [ingestHeaders] at h
    split at h
    · rename_i s e' round
      cases h
      rw [round] at flags
      exact flags
    · cases h
    · rename_i s round
      rw [round] at flags
      obtain ⟨complete, error⟩ := ih h
      exact ⟨complete.trans flags.1, error.trans flags.2⟩

/-- What lies behind the headers is the end of the scanned data. -/
theorem ingestHeaders_suffix {r r' : HttpRequest} {data rest : List UInt8}
    (h : r.ingestHeaders httparse onHeaders data = (r', .ok rest)) : rest <:+ data := by
  induction data generalizing r with
  | nil =>
    cases h
    exact List.suffix_rfl
  | cons byte data ih =>
    rw [ingestHeaders] at h
    split at h
    · cases h
    · cases h
      exact List.suffix_cons _ _
    · exact (ih h).trans (List.suffix_cons byte data)

/-- Scanning two pieces: the second one is only scanned when the first one has not
reached the end of the headers. -/
theorem ingestHeaders_append (xs ys : List UInt8) (scanning : r.headersComplete = false) :
    r.ingestHeaders httparse onHeaders (xs ++ ys) =
      match r.ingestHeaders httparse onHeaders xs with
      | (r', .error e) => (r', .error e)
      | (r', .ok rest) =>
        if r'.headersComplete then (r', .ok (rest ++ ys))
        else r'.ingestHeaders httparse onHeaders ys := by
  induction xs generalizing r with
  | nil => simp [ingestHeaders, scanning]
  | cons byte xs ih =>
    simp only [List.cons_append, ingestHeaders]
    split
    · rfl
    · rename_i s round
      have done := headerByte_headersComplete true (by rw [round]) scanning
      rw [round] at done
      exact (if_pos done).symm
    · rename_i s round
      have done := headerByte_headersComplete false (by rw [round]) scanning
      rw [round] at done
      exact ih done

/-- Fewer bytes than needed are all kept. -/
theorem bufferBodyAndLeftover_of_short {data : List UInt8}
    (short : r.buffer.length + data.length < r.contentLength.getD 0) :
    r.bufferBodyAndLeftover data = { r with buffer := r.buffer ++ data } := by
  have all : min data.length (r.contentLength.getD 0 - r.buffer.length) = data.length := by omega
  simp only [bufferBodyAndLeftover, all, List.take_length, List.length_append]
  rw [if_neg (by omega)]

/-- Enough bytes complete the request; what lies behind the body is the leftover. -/
theorem bufferBodyAndLeftover_of_enough {data : List UInt8}
    (fits : r.buffer.length ≤ r.contentLength.getD 0)
    (enough : r.contentLength.getD 0 ≤ r.buffer.length + data.length) :
    r.bufferBodyAndLeftover data =
      { r with
        body := if r.contentLength.getD 0 ≠ 0 then
            some (r.buffer ++ data.take (r.contentLength.getD 0 - r.buffer.length))
          else r.body
        complete := true
        buffer := data.drop (r.contentLength.getD 0 - r.buffer.length) } := by
  have part : min data.length (r.contentLength.getD 0 - r.buffer.length) =
      r.contentLength.getD 0 - r.buffer.length := by omega
  simp only [bufferBodyAndLeftover, part]
  rw [if_pos (by simp; omega)]
  by_cases empty : r.contentLength.getD 0 = 0
  · have none : r.buffer = [] := List.length_eq_zero_iff.mp (by omega)
    simp [empty, none]
  · simp [empty]

/-- A buffer beyond the declared length takes no more bytes. -/
theorem bufferBodyAndLeftover_of_over (data : List UInt8)
    (beyond : r.contentLength.getD 0 < r.buffer.length) : r.bufferBodyAndLeftover data = r := by
  have nothing : min data.length (r.contentLength.getD 0 - r.buffer.length) = 0 := by omega
  simp only [bufferBodyAndLeftover, nothing, List.take_zero, List.append_nil]
  rw [if_neg (by omega)]

theorem bufferBodyAndLeftover_append (xs ys : List UInt8) (reading : r.complete = false) :
    r.bufferBodyAndLeftover (xs ++ ys) =
      if (r.bufferBodyAndLeftover xs).complete then
        { r.bufferBodyAndLeftover xs with buffer := (r.bufferBodyAndLeftover xs).buffer ++ ys }
      else (r.bufferBodyAndLeftover xs).bufferBodyAndLeftover ys := by
  by_cases beyond : r.contentLength.getD 0 < r.buffer.length
  · simp [bufferBodyAndLeftover_of_over, beyond, reading]
  by_cases short : r.buffer.length + xs.length < r.contentLength.getD 0
  · -- the first piece ends inside the body, or exactly before its last byte
    rw [bufferBodyAndLeftover_of_short short]
    simp only [reading, Bool.false_eq_true, if_false]
    by_cases still : r.buffer.length + (xs ++ ys).length < r.contentLength.getD 0
    · rw [bufferBodyAndLeftover_of_short still, bufferBodyAndLeftover_of_short]
      · simp [reading]
      · simpa [Nat.add_assoc] using still
    · rw [List.length_append] at still
      rw [bufferBodyAndLeftover_of_enough (by omega) (by simp; omega),
        bufferBodyAndLeftover_of_enough (by simp; omega) (by simp; omega)]
      have split : r.contentLength.getD 0 - r.buffer.length =
          xs.length + (r.contentLength.getD 0 - (r.buffer.length + xs.length)) := by omega
      simp only [split, List.length_append, List.take_length_add_append,
        List.drop_length_add_append, List.append_assoc]
  · -- the first piece completes the request, the second one is leftover
    have enough : r.contentLength.getD 0 ≤ r.buffer.length + xs.length := by omega
    rw [bufferBodyAndLeftover_of_enough (by omega) enough,
      bufferBodyAndLeftover_of_enough (by omega) (by simp; omega)]
    have inside : r.contentLength.getD 0 - r.buffer.length ≤ xs.length := by omega
    simp [List.take_append_of_le_length inside, List.drop_append_of_le_length inside]

theorem bufferBodyAndLeftover_headersComplete (r : HttpRequest) (data : List UInt8) :
    (r.bufferBodyAndLeftover data).headersComplete = r.headersComplete ∧
      (r.bufferBodyAndLeftover data).error = r.error := by
  simp only [bufferBodyAndLeftover]
  split
  · split <;> exact ⟨rfl, rfl⟩
  · exact ⟨rfl, rfl⟩

theorem ingest_of_complete (data : List UInt8) (done : r.complete = true) :
    r.ingest httparse onHeaders data = ({ r with buffer := r.buffer ++ data }, .ok ()) := by
  simp [ingest, done]

theorem ingest_of_headersComplete (data : List UInt8)
    (reading : r.complete = false) (body : r.headersComplete = true) :
    r.ingest httparse onHeaders data = (r.bufferBodyAndLeftover data, .ok ()) := by
  simp [ingest, reading, body]

theorem ingest_of_scanning (data : List UInt8) (reading : r.complete = false)
    (scanning : r.headersComplete = false) :
    r.ingest httparse onHeaders data =
      match r.ingestHeaders httparse onHeaders data with
      | (r, .error e) => (r, .error e)
      | (r, .ok rest) =>
        (if r.headersComplete then r.bufferBodyAndLeftover rest else r, .ok ()) := by
  cases scan : r.ingestHeaders httparse onHeaders data with
  | mk r' result =>
    cases result with
    | error e => simp [ingest, reading, scanning, scan]
    | ok rest => simp [ingest, reading, scanning, scan]

/-- Body bytes in two pieces. -/
theorem ingest_body_append (xs ys : List UInt8) (reading : r.complete = false)
    (body : r.headersComplete = true) :
    (r.bufferBodyAndLeftover xs).ingest httparse onHeaders ys =
      (r.bufferBodyAndLeftover (xs ++ ys), .ok ()) := by
  rw [bufferBodyAndLeftover_append xs ys reading]
  cases done : (r.bufferBodyAndLeftover xs).complete with
  | true => exact ingest_of_complete ys done
  | false =>
    refine ingest_of_headersComplete ys done ?_
    exact (bufferBodyAndLeftover_headersComplete r xs).1.trans body

/-- Only the caller latches errors. -/
theorem ingest_error (httparse : Httparse) (onHeaders : Request → Except ProtocolError Nat)
    (r : HttpRequest) (data : List UInt8) :
    (r.ingest httparse onHeaders data).1.error = r.error := by
  cases reading : r.complete with
  | true => rw [ingest_of_complete _ reading]
  | false =>
    cases scanning : r.headersComplete with
    | true =>
      rw [ingest_of_headersComplete _ reading scanning]
      exact (bufferBodyAndLeftover_headersComplete r data).2
    | false =>
      rw [ingest_of_scanning _ reading scanning]
      cases first : r.ingestHeaders httparse onHeaders data with
      | mk r' result =>
        cases result with
        | error e => exact (ingestHeaders_error first).2
        | ok rest =>
          obtain ⟨_, kept, _⟩ := ingestHeaders_ok first scanning
          dsimp only
          split
          · exact (bufferBodyAndLeftover_headersComplete r' rest).2.trans kept
          · exact kept

theorem ingest_append (r : HttpRequest) (xs ys : List UInt8) :
    r.ingest httparse onHeaders (xs ++ ys) =
      match r.ingest httparse onHeaders xs with
      | (r', .error e) => (r', .error e)
      | (r', .ok _) => r'.ingest httparse onHeaders ys := by
  cases reading : r.complete with
  | true =>
    rw [ingest_of_complete _ reading, ingest_of_complete _ reading]
    exact (by simp [ingest, reading])
  | false =>
    cases scanning : r.headersComplete with
    | true =>
      rw [ingest_of_headersComplete _ reading scanning,
        ingest_of_headersComplete _ reading scanning]
      exact (ingest_body_append xs ys reading scanning).symm
    | false =>
      rw [ingest_of_scanning _ reading scanning, ingest_of_scanning _ reading scanning,
        ingestHeaders_append xs ys scanning]
      cases first : r.ingestHeaders httparse onHeaders xs with
      | mk r' result =>
        cases result with
        | error e => rfl
        | ok rest =>
          obtain ⟨complete, _, _⟩ := ingestHeaders_ok first scanning
          rw [reading] at complete
          cases done : r'.headersComplete with
          | true =>
            simp only [done, if_true]
            exact (ingest_body_append rest ys complete done).symm
          | false =>
            simp only [done, Bool.false_eq_true, if_false]
            exact (ingest_of_scanning ys complete done).symm

/-- Two pieces one after the other are as good as both at once; an error in the first
one already settles the matter. -/
theorem addDataWithBodyLimit_append (httparse : Httparse)
    (onHeaders : Request → Except ProtocolError Nat) (r : HttpRequest) (xs ys : List UInt8) :
    r.addDataWithBodyLimit httparse onHeaders (xs ++ ys) =
      match r.addDataWithBodyLimit httparse onHeaders xs with
      | (r', .error e) => (r', .error e)
      | (r', .ok _) => r'.addDataWithBodyLimit httparse onHeaders ys := by
  cases latched : r.error with
  | some message => simp [addDataWithBodyLimit, latched]
  | none =>
    simp only [addDataWithBodyLimit, latched, ingest_append r xs ys]
    cases first : r.ingest httparse onHeaders xs with
    | mk r' result =>
      cases result with
      | error e => rfl
      | ok _ =>
        have clean : r'.error = none := by
          have kept := ingest_error httparse onHeaders r xs
          rw [first] at kept
          exact kept.trans latched
        simp only [clean]

theorem leftover_of_complete (done : r.complete = true) : r.leftover = r.buffer := by
  simp [leftover, done]

theorem leftover_of_reading (reading : r.complete = false) : r.leftover = [] := by
  simp [leftover, reading]

theorem bufferBodyAndLeftover_suffix (data : List UInt8) (reading : r.complete = false) :
    (r.bufferBodyAndLeftover data).leftover <:+ data := by
  by_cases beyond : r.contentLength.getD 0 < r.buffer.length
  · rw [bufferBodyAndLeftover_of_over data beyond, leftover_of_reading reading]
    exact List.nil_suffix
  by_cases short : r.buffer.length + data.length < r.contentLength.getD 0
  · rw [bufferBodyAndLeftover_of_short short, leftover_of_reading (by exact reading)]
    exact List.nil_suffix
  · rw [bufferBodyAndLeftover_of_enough (by omega) (by omega), leftover_of_complete rfl]
    exact List.drop_suffix _ _

theorem bufferBodyAndLeftover_leftover_le {data : List UInt8}
    (reading : r.complete = false) (done : (r.bufferBodyAndLeftover data).complete = true) :
    (r.bufferBodyAndLeftover data).buffer.length ≤ data.length := by
  by_cases beyond : r.contentLength.getD 0 < r.buffer.length
  · rw [bufferBodyAndLeftover_of_over data beyond, reading] at done
    exact absurd done Bool.false_ne_true
  by_cases short : r.buffer.length + data.length < r.contentLength.getD 0
  · rw [bufferBodyAndLeftover_of_short short] at done
    exact absurd (reading.symm.trans done) Bool.false_ne_true
  · rw [bufferBodyAndLeftover_of_enough (by omega) (by omega)]
    simp

theorem addDataWithBodyLimit_ok_iff {r r' : HttpRequest} {data : List UInt8} {u : Unit} :
    r.addDataWithBodyLimit httparse onHeaders data = (r', .ok u) ↔
      r.error = none ∧ r.ingest httparse onHeaders data = (r', .ok u) := by
  unfold addDataWithBodyLimit
  cases r.error with
  | some message => simp
  | none =>
    cases r.ingest httparse onHeaders data with
    | mk s result => cases result <;> simp

/-- What is kept behind a request are the last bytes it was fed. -/
theorem leftover_suffix {r r' : HttpRequest} {data : List UInt8} {u : Unit}
    (fed : r.addDataWithBodyLimit httparse onHeaders data = (r', .ok u)) :
    r'.leftover <:+ r.leftover ++ data := by
  obtain ⟨_, fed⟩ := addDataWithBodyLimit_ok_iff.mp fed
  cases reading : r.complete with
  | true =>
    rw [ingest_of_complete _ reading] at fed
    cases fed
    have whole : r.leftover ++ data = { r with buffer := r.buffer ++ data }.leftover := by
      simp only [leftover, reading, if_true]
    exact ⟨[], whole.symm⟩
  | false =>
    rw [leftover_of_reading reading, List.nil_append]
    cases scanning : r.headersComplete with
    | true =>
      rw [ingest_of_headersComplete _ reading scanning] at fed
      cases fed
      exact bufferBodyAndLeftover_suffix data reading
    | false =>
      rw [ingest_of_scanning _ reading scanning] at fed
      cases scan : r.ingestHeaders httparse onHeaders data with
      | mk s result =>
        rw [scan] at fed
        cases result with
        | error e => cases fed
        | ok rest =>
          cases fed
          obtain ⟨kept, _, found⟩ := ingestHeaders_ok scan scanning
          rw [reading] at kept
          split
          · exact (bufferBodyAndLeftover_suffix rest kept).trans (ingestHeaders_suffix scan)
          · rw [leftover_of_reading kept]
            exact List.nil_suffix

/-- A request takes at least one byte of the data that completes it. -/
theorem addDataWithBodyLimit_leftover_lt {data : List UInt8}
    (reading : r.complete = false) (scanning : r.headersComplete = false)
    (done : (r.addDataWithBodyLimit httparse onHeaders data).1.complete = true) :
    (r.addDataWithBodyLimit httparse onHeaders data).1.buffer.length < data.length := by
  revert done
  unfold addDataWithBodyLimit
  split
  · intro done
    exact absurd (reading.symm.trans done) Bool.false_ne_true
  · rw [ingest_of_scanning _ reading scanning]
    cases scan : r.ingestHeaders httparse onHeaders data with
    | mk r' result =>
      cases result with
      | error e =>
        intro done
        have kept := (ingestHeaders_error scan).1.trans reading
        exact absurd (kept.symm.trans done) Bool.false_ne_true
      | ok rest =>
        obtain ⟨kept, _, found⟩ := ingestHeaders_ok scan scanning
        rw [reading] at kept
        dsimp only
        rcases found with ⟨headers, shorter⟩ | ⟨headers, _⟩
        · simp only [headers, if_true]
          intro done
          exact Nat.lt_of_le_of_lt (bufferBodyAndLeftover_leftover_le kept done) shorter
        · simp only [headers, Bool.false_eq_true, if_false]
          intro done
          exact absurd (kept.symm.trans done) Bool.false_ne_true

end Shairplay.Proto.HttpRequest
