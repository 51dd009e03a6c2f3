import Mathlib.Data.List.SplitBy
import Shairplay.Crypto.Tlv.RoundTrip

/-!
# Which chunks continue an entry

The wire format lets a chunk continue the entry before it when the chunk before it has the
same tag and is full. The decoder looks at the length of the whole entry read so far instead.
The two agree until an empty chunk follows a full one: the entry then still has a multiple of
255 bytes, and takes in a chunk that the format would start an entry with.
-/

namespace Shairplay.Crypto.TlvValues

open List

/-- The second of two consecutive chunks continues the entry of the first. -/
def sameEntry (first second : UInt8 × List UInt8) : Bool :=
  first.1 == second.1 && first.2.length == 255

/-- The entry that a run of chunks makes up: the tag they share and all of their bytes. -/
def runEntry (run : List (UInt8 × List UInt8)) : UInt8 × List UInt8 :=
  ((run.getLast?.map Prod.fst).getD 0, run.flatMap Prod.snd)

/-- The entries of a sequence of chunks by the rule: a new one starts wherever a chunk does not
continue the chunk before it. -/
def entriesByRule (chunks : List (UInt8 × List UInt8)) : List (UInt8 × List UInt8) :=
  (chunks.splitBy sameEntry).map runEntry

def encodeChunks (chunks : List (UInt8 × List UInt8)) : List UInt8 :=
  chunks.flatMap fun chunk => encodeChunk chunk.1 chunk.2

theorem decode_encodeChunks {chunks : List (UInt8 × List UInt8)}
    (short : ∀ chunk ∈ chunks, chunk.2.length ≤ 255) :
    decode (encodeChunks chunks) = .ok ⟨chunks.foldl addChunk []⟩ := by
  have folded := @decodeLoop_chunks (encodeChunks chunks).length [] _ [] short
    (by simp [encodeChunks])
  rw [append_nil] at folded
  refine Eq.trans folded ?_
  cases (encodeChunks chunks).length - chunks.length <;> rfl

section Runs

variable {α : Type*} {r : α → α → Bool} {l : List α} {a b : α}

/-- The last run ends with the last element. -/
theorem splitBy_concat (r : α → α → Bool) (l : List α) (a : α) :
    ∃ runs run, (l ++ [a]).splitBy r = runs ++ [run ++ [a]] := by
  have nonempty : (l ++ [a]).splitBy r ≠ [] := by simp
  obtain ⟨runs, last, split⟩ := (eq_nil_or_concat' ((l ++ [a]).splitBy r)).resolve_left nonempty
  have filled : last ≠ [] := by
    rintro rfl
    exact nil_notMem_splitBy r (l ++ [a]) (by simp [split])
  obtain ⟨run, b, rfl⟩ := (eq_nil_or_concat' last).resolve_left filled
  have whole := flatten_splitBy r (l ++ [a])
  rw [split, flatten_append, flatten_singleton, ← append_assoc] at whole
  obtain ⟨_, same⟩ := append_inj' whole rfl
  obtain rfl := singleton_inj.mp same
  exact ⟨runs, run, split⟩

/-- An element related to the one before it joins its run. -/
theorem splitBy_concat_of_rel {runs : List (List α)} {run : List α}
    (split : (l ++ [a]).splitBy r = runs ++ [run ++ [a]]) (related : r a b = true) :
    (l ++ [a] ++ [b]).splitBy r = runs ++ [run ++ [a] ++ [b]] := by
  obtain ⟨whole, filled, chains, breaks⟩ := splitBy_eq_iff.mp split
  refine splitBy_eq_iff.mpr ⟨?_, ?_, ?_, ?_⟩
  · simp [whole]
  · intro empty
    rcases mem_append.mp empty with inside | last
    · exact filled (mem_append_left _ inside)
    · simp at last
  · intro m mem
    rcases mem_append.mp mem with inside | last
    · exact chains m (mem_append_left _ inside)
    · rw [mem_singleton.mp last]
      exact (chains (run ++ [a]) (by simp)).append (isChain_singleton b) (by simp [related])
  · obtain ⟨before, _, between⟩ := isChain_append.mp breaks
    refine isChain_append.mpr ⟨before, isChain_singleton _, ?_⟩
    intro x last y first
    obtain rfl : run ++ [a] ++ [b] = y := by simpa using first
    obtain ⟨hx, hy, apart⟩ := between x last (run ++ [a]) rfl
    refine ⟨hx, by simp, ?_⟩
    rwa [head_append_of_ne_nil]

end Runs

section Rule

variable {chunks : List (UInt8 × List UInt8)} {last chunk : UInt8 × List UInt8}

theorem runEntry_concat (run : List (UInt8 × List UInt8)) (chunk : UInt8 × List UInt8) :
    runEntry (run ++ [chunk]) = (chunk.1, run.flatMap Prod.snd ++ chunk.2) := by
  simp [runEntry]

theorem entriesByRule_of_same (same : sameEntry last chunk = true) :
    ∃ front value, entriesByRule (chunks ++ [last]) = front ++ [(chunk.1, value)] ∧
      entriesByRule (chunks ++ [last] ++ [chunk]) = front ++ [(chunk.1, value ++ chunk.2)] := by
  obtain ⟨runs, run, split⟩ := splitBy_concat sameEntry chunks last
  have tag : last.1 = chunk.1 := by
    simp only [sameEntry, Bool.and_eq_true, beq_iff_eq] at same
    exact same.1
  refine ⟨runs.map runEntry, run.flatMap Prod.snd ++ last.2, ?_, ?_⟩
  · rw [entriesByRule, split, map_append, map_singleton, runEntry_concat, tag]
  · rw [entriesByRule, splitBy_concat_of_rel split same, map_append, map_singleton,
      runEntry_concat, flatMap_append, flatMap_singleton]

theorem entriesByRule_of_new (new : ∀ last ∈ chunks.getLast?, sameEntry last chunk = false) :
    entriesByRule (chunks ++ [chunk]) = entriesByRule chunks ++ [chunk] := by
  have alone : [chunk].splitBy sameEntry = [[] ++ [chunk]] := rfl
  rw [entriesByRule, splitBy_append_cons [] new, map_append, alone, map_singleton, runEntry_concat]
  rfl

end Rule

variable {chunks : List (UInt8 × List UInt8)} {chunk : UInt8 × List UInt8}

/-- The chunks end with a full one under the tag, with nothing but empty ones behind it. -/
def Unfinished (tag : UInt8) (chunks : List (UInt8 × List UInt8)) : Prop :=
  ∃ front full count, full.length = 255 ∧
    chunks = front ++ (tag, full) :: List.replicate count (tag, [])

theorem unfinished_concat {tag : UInt8} :
    Unfinished tag (chunks ++ [chunk]) ↔
      chunk.1 = tag ∧ (chunk.2.length = 255 ∨ chunk.2 = [] ∧ Unfinished tag chunks) := by
  constructor
  · rintro ⟨front, full, count, size, whole⟩
    cases count with
    | zero =>
      obtain ⟨_, same⟩ := append_inj' whole rfl
      obtain rfl := singleton_inj.mp same
      exact ⟨rfl, .inl size⟩
    | succ count =>
      rw [replicate_succ', ← cons_append, ← append_assoc] at whole
      obtain ⟨rfl, same⟩ := append_inj' whole rfl
      obtain rfl := singleton_inj.mp same
      exact ⟨rfl, .inr ⟨rfl, front, full, count, size, rfl⟩⟩
  · obtain ⟨tag', bytes⟩ := chunk
    rintro ⟨rfl, size | ⟨rfl, front, full, count, size, rfl⟩⟩
    · exact ⟨chunks, bytes, 0, size, rfl⟩
    · refine ⟨front, full, count + 1, size, ?_⟩
      rw [replicate_succ', append_assoc, cons_append]

theorem continues_iff {tag : UInt8} {entry : UInt8 × List UInt8} :
    continues tag entry = true ↔ entry.1 = tag ∧ entry.2.length % 255 = 0 ∧ entry.2 ≠ [] := by
  simp [continues, and_assoc]

/-- The entry being read is open to a further chunk exactly while the chunks are
unfinished. -/
theorem continues_foldl_addChunk {tag : UInt8} (short : ∀ chunk ∈ chunks, chunk.2.length ≤ 255) :
    (∃ last ∈ (chunks.foldl addChunk []).getLast?, continues tag last = true) ↔
      Unfinished tag chunks := by
  induction chunks using reverseRecOn generalizing tag with
  | nil => simp [Unfinished]
  | append_singleton chunks chunk ih =>
    have size := short chunk (by simp)
    have before := fun tag => @ih tag fun c mem => short c (mem_append_left _ mem)
    rw [foldl_append, foldl_cons, foldl_nil, unfinished_concat]
    rcases addChunk_cases (chunks.foldl addChunk []) chunk with
      ⟨front, value, entries, full, some, added⟩ | ⟨new, added⟩
    · -- the entry was open, so its length is again a multiple when the chunk is full or empty
      have opened : Unfinished chunk.1 chunks := by
        refine (before chunk.1).mp ⟨(chunk.1, value), by simp [entries], ?_⟩
        exact continues_iff.mpr ⟨rfl, full, some⟩
      have multiple : (value ++ chunk.2).length % 255 = 0 ↔
          chunk.2.length = 255 ∨ chunk.2 = [] := by
        rw [length_append, ← length_eq_zero_iff]
        omega
      simp only [added, getLast?_concat, Option.mem_some_iff, exists_eq_left', continues_iff,
        multiple, ne_eq, append_eq_nil_iff, some, false_and, not_false_eq_true, and_true]
      constructor
      · rintro ⟨rfl, full | empty⟩
        · exact ⟨rfl, .inl full⟩
        · exact ⟨rfl, .inr ⟨empty, opened⟩⟩
      · rintro ⟨rfl, full | ⟨empty, _⟩⟩
        · exact ⟨rfl, .inl full⟩
        · exact ⟨rfl, .inr empty⟩
    · have closed : ¬ Unfinished chunk.1 chunks := by
        intro opened
        obtain ⟨last, found, continued⟩ := (before chunk.1).mpr opened
        exact Bool.false_ne_true ((new last found).symm.trans continued)
      have multiple : chunk.2.length % 255 = 0 ∧ chunk.2 ≠ [] ↔ chunk.2.length = 255 := by
        rw [Ne, ← length_eq_zero_iff]
        omega
      simp only [added, getLast?_concat, Option.mem_some_iff, exists_eq_left', continues_iff,
        multiple]
      constructor
      · rintro ⟨rfl, full⟩
        exact ⟨rfl, .inl full⟩
      · rintro ⟨rfl, full | ⟨_, opened⟩⟩
        · exact ⟨rfl, full⟩
        · exact absurd opened closed

/-- The next chunk goes to the end of the entry being read. -/
theorem addChunk_of_unfinished (short : ∀ chunk ∈ chunks, chunk.2.length ≤ 255)
    (opened : Unfinished chunk.1 chunks) :
    ∃ front value, chunks.foldl addChunk [] = front ++ [(chunk.1, value)] ∧
      addChunk (chunks.foldl addChunk []) chunk = front ++ [(chunk.1, value ++ chunk.2)] := by
  rcases addChunk_cases (chunks.foldl addChunk []) chunk with
    ⟨front, value, entries, _, _, added⟩ | ⟨new, _⟩
  · exact ⟨front, value, entries, added⟩
  · obtain ⟨last, found, continued⟩ := (continues_foldl_addChunk short).mpr opened
    exact absurd continued (Bool.eq_false_iff.mp (new last found))

/-- The next chunk starts an entry. -/
theorem addChunk_of_not_unfinished (short : ∀ chunk ∈ chunks, chunk.2.length ≤ 255)
    (closed : ¬ Unfinished chunk.1 chunks) :
    addChunk (chunks.foldl addChunk []) chunk = chunks.foldl addChunk [] ++ [chunk] := by
  refine addChunk_of_not_continues ?_
  intro last found
  exact Bool.eq_false_iff.mpr fun continued =>
    closed ((continues_foldl_addChunk short).mp ⟨last, found, continued⟩)

/-- A full chunk is followed by an empty one and a further one, all under one tag. -/
def Interrupted (chunks : List (UInt8 × List UInt8)) : Prop :=
  ∃ tag full bytes, full.length = 255 ∧ [(tag, full), (tag, []), (tag, bytes)] <:+: chunks

theorem interrupted_concat :
    Interrupted (chunks ++ [chunk]) ↔ Interrupted chunks ∨
      ∃ front full, full.length = 255 ∧ chunks = front ++ [(chunk.1, full), (chunk.1, [])] := by
  constructor
  · rintro ⟨tag, full, bytes, size, inside⟩
    rcases infix_concat_iff.mp inside with ⟨front, ends⟩ | inside
    · right
      have whole : front ++ [(tag, full), (tag, [])] ++ [(tag, bytes)] = chunks ++ [chunk] := by
        simpa using ends
      obtain ⟨rfl, same⟩ := append_inj' whole rfl
      obtain rfl := singleton_inj.mp same
      exact ⟨front, full, size, rfl⟩
    · exact .inl ⟨tag, full, bytes, size, inside⟩
  · rintro (⟨tag, full, bytes, size, inside⟩ | ⟨front, full, size, rfl⟩)
    · exact ⟨tag, full, bytes, size, inside.trans (infix_append [] chunks [chunk])⟩
    · exact ⟨chunk.1, full, chunk.2, size, front, [], by simp⟩

theorem interrupted_of_unfinished (opened : Unfinished chunk.1 chunks)
    (new : ∀ last ∈ chunks.getLast?, sameEntry last chunk = false) :
    Interrupted (chunks ++ [chunk]) := by
  obtain ⟨front, full, count, size, rfl⟩ := opened
  cases count with
  | zero => simp [sameEntry, size] at new
  | succ count =>
    refine ⟨chunk.1, full, ((replicate count (chunk.1, []) ++ [chunk]).head (by simp)).2, size,
      front, (replicate count (chunk.1, []) ++ [chunk]).tail, ?_⟩
    cases count <;> simp [replicate_succ]

/-- The decoder never makes more entries than the rule, and one fewer from the first chunk on
that it takes in against the rule. -/
theorem foldl_addChunk_eq_entriesByRule_iff (short : ∀ chunk ∈ chunks, chunk.2.length ≤ 255) :
    (chunks.foldl addChunk []).length ≤ (entriesByRule chunks).length ∧
      (chunks.foldl addChunk [] = entriesByRule chunks ↔ ¬ Interrupted chunks) := by
  induction chunks using reverseRecOn with
  | nil => simp [entriesByRule, Interrupted]
  | append_singleton chunks chunk ih =>
    have short' : ∀ c ∈ chunks, c.2.length ≤ 255 := fun c mem => short c (mem_append_left _ mem)
    obtain ⟨fewer, equal⟩ := ih short'
    rw [foldl_append, foldl_cons, foldl_nil, interrupted_concat]
    by_cases same : ∃ last ∈ chunks.getLast?, sameEntry last chunk = true
    · -- a full chunk came last, and both go on with its entry
      obtain ⟨last, found, same⟩ := same
      obtain ⟨init, rfl⟩ := getLast?_eq_some_iff.mp found
      obtain ⟨tag, full⟩ : last.1 = chunk.1 ∧ last.2.length = 255 := by
        simpa [sameEntry] using same
      obtain ⟨front, value, entries, added⟩ :=
        addChunk_of_unfinished short' (unfinished_concat.mpr ⟨tag, .inl full⟩)
      obtain ⟨front', value', ruled, extended⟩ := @entriesByRule_of_same init last chunk same
      have filled : ¬ ∃ front full, full.length = 255 ∧
          init ++ [last] = front ++ [(chunk.1, full), (chunk.1, [])] := by
        rintro ⟨before, _, _, whole⟩
        rw [append_cons before] at whole
        obtain ⟨_, last_eq⟩ := append_inj' whole rfl
        rw [singleton_inj.mp last_eq] at full
        simp at full
      rw [entries, ruled] at fewer equal
      rw [added, extended, or_iff_left filled, ← equal]
      constructor
      · simpa using fewer
      · simp [append_eq_append_iff_of_size_eq_right]
    · have new : ∀ last ∈ chunks.getLast?, sameEntry last chunk = false := fun last found =>
        Bool.eq_false_iff.mpr fun yes => same ⟨last, found, yes⟩
      rw [entriesByRule_of_new new, ← interrupted_concat]
      by_cases opened : Unfinished chunk.1 chunks
      · -- the decoder lags behind, and never catches up
        obtain ⟨front, value, entries, added⟩ := addChunk_of_unfinished short' opened
        rw [entries] at fewer
        have lag : (addChunk (chunks.foldl addChunk []) chunk).length <
            (entriesByRule chunks ++ [chunk]).length := by
          rw [added]
          simp only [length_append, length_singleton] at fewer ⊢
          omega
        refine ⟨lag.le, ?_⟩
        constructor
        · intro same
          exact absurd (congrArg length same) lag.ne
        · intro whole
          exact absurd (interrupted_of_unfinished opened new) whole
      · rw [addChunk_of_not_unfinished short' opened, interrupted_concat]
        have apart : ¬ ∃ front full, full.length = 255 ∧
            chunks = front ++ [(chunk.1, full), (chunk.1, [])] := by
          rintro ⟨front, full, size, whole⟩
          exact opened ⟨front, full, 1, size, whole⟩
        rw [or_iff_left apart, append_left_inj]
        exact ⟨by simpa using fewer, equal⟩

/-- The decoder follows the rule of the format on exactly those sequences of chunks in which no
full chunk is followed by an empty and a further one under its tag. -/
theorem decode_byRule_iff (chunks : List (UInt8 × List UInt8))
    (short : ∀ chunk ∈ chunks, chunk.2.length ≤ 255) :
    decode (encodeChunks chunks) = .ok ⟨entriesByRule chunks⟩ ↔ ¬ Interrupted chunks := by
  rw [decode_encodeChunks short, ← (foldl_addChunk_eq_entriesByRule_iff short).2]
  simp

theorem decode_byRule_publicKey :
    decode (encodeChunks [(3, List.replicate 255 0), (3, [1])]) =
      .ok ⟨entriesByRule [(3, List.replicate 255 0), (3, [1])]⟩ := by
  refine (decode_byRule_iff _ (by decide +kernel)).mpr ?_
  rintro ⟨tag, full, bytes, _, inside⟩
  have longer : 3 ≤ 2 := inside.length_le
  omega

/-- The decoder adds the third chunk to an entry that the empty second one ended. -/
theorem decode_interrupted :
    decode (encodeChunks [(3, List.replicate 255 0), (3, []), (3, [1])]) =
        .ok ⟨[(3, List.replicate 255 0 ++ [1])]⟩ ∧
      entriesByRule [(3, List.replicate 255 0), (3, []), (3, [1])] =
        [(3, List.replicate 255 0), (3, [1])] := by
  decide +kernel

end Shairplay.Crypto.TlvValues
