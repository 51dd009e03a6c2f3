import Mathlib.Data.List.Chain
import Shairplay.Crypto.Tlv

/-!
# Reading back a TLV message

Encoding and decoding agree on every message in which no entry could swallow its
successor. The chunks of one value are all full except for the last, so each of them
continues the value read so far.
-/

namespace Shairplay.Crypto.TlvValues

open Lib Segment

@[simp] theorem length_encodeChunk (tag : UInt8) (chunk : List UInt8) :
    (encodeChunk tag chunk).length = chunk.length + 2 := rfl

theorem encodeChunk_append (tag : UInt8) (chunk rest : List UInt8) :
    encodeChunk tag chunk ++ rest = tag :: UInt8.ofNat chunk.length :: (chunk ++ rest) := rfl

/-- Whatever is decoded chunk by chunk: the chunks of well-formed data are folded in. -/
theorem decodeLoop_chunks {fuel : Nat} {entries chunks : List (UInt8 × List UInt8)}
    {rest : List UInt8} (short : ∀ chunk ∈ chunks, chunk.2.length ≤ 255)
    (enough : (chunks.flatMap fun chunk => encodeChunk chunk.1 chunk.2).length + rest.length ≤
      fuel) :
    decodeLoop fuel entries ((chunks.flatMap fun chunk => encodeChunk chunk.1 chunk.2) ++ rest) =
      decodeLoop (fuel - chunks.length) (chunks.foldl addChunk entries) rest := by
  induction chunks generalizing fuel entries with
  | nil => rfl
  | cons chunk chunks ih =>
    obtain ⟨tag, bytes⟩ := chunk
    have size : bytes.length ≤ 255 := short (tag, bytes) (by simp)
    have length : (UInt8.ofNat bytes.length).toNat = bytes.length := by
      rw [UInt8.toNat_ofNat']
      omega
    rw [List.flatMap_cons, List.length_append, length_encodeChunk] at enough
    cases fuel with
    | zero => omega
    | succ fuel =>
      rw [List.flatMap_cons, List.append_assoc, encodeChunk_append, decodeLoop, length,
        if_neg (by simp), List.take_left, List.drop_left,
        ih (fun c hc => short c (List.mem_cons_of_mem _ hc)) (by omega), List.length_cons,
        Nat.add_sub_add_right, List.foldl_cons]

theorem entryChunks_short {entry chunk : UInt8 × List UInt8} (mem : chunk ∈ entryChunks entry) :
    chunk.2.length ≤ 255 := by
  unfold entryChunks at mem
  split at mem
  · simp_all
  · obtain ⟨piece, inside, rfl⟩ := List.mem_map.mp mem
    exact (chunks_bounds (by decide) inside).2

theorem decode_encode_eq_chunks (values : TlvValues) :
    decode values.encode = .ok ⟨(values.entries.flatMap entryChunks).foldl addChunk []⟩ := by
  have short : ∀ chunk ∈ values.entries.flatMap entryChunks, chunk.2.length ≤ 255 := by
    intro chunk mem
    obtain ⟨entry, _, mem⟩ := List.mem_flatMap.mp mem
    exact entryChunks_short mem
  have folded := @decodeLoop_chunks values.encode.length [] _ [] short (by simp [encode])
  rw [List.append_nil] at folded
  unfold decode
  refine Eq.trans folded ?_
  cases values.encode.length - (values.entries.flatMap entryChunks).length <;> rfl

section Value

variable {entries : List (UInt8 × List UInt8)} {tag : UInt8} {value piece : List UInt8}

theorem addChunk_of_continues (full : value.length % 255 = 0) (some : value ≠ []) :
    addChunk (entries ++ [(tag, value)]) (tag, piece) = entries ++ [(tag, value ++ piece)] := by
  have yes : continues tag (tag, value) = true := by simp [continues, full, some]
  simp [addChunk, yes]

theorem addChunk_of_not_continues (new : ∀ last ∈ entries.getLast?, continues tag last = false) :
    addChunk entries (tag, piece) = entries ++ [(tag, piece)] := by
  unfold addChunk
  split
  · rename_i last found
    rw [if_neg (by simp [new last found])]
  · rfl

/-- Taking in a chunk either lengthens a last entry that is open to it or adds an entry. -/
theorem addChunk_cases (entries : List (UInt8 × List UInt8)) (chunk : UInt8 × List UInt8) :
    (∃ front value, entries = front ++ [(chunk.1, value)] ∧ value.length % 255 = 0 ∧ value ≠ [] ∧
      addChunk entries chunk = front ++ [(chunk.1, value ++ chunk.2)]) ∨
    ((∀ last ∈ entries.getLast?, continues chunk.1 last = false) ∧
      addChunk entries chunk = entries ++ [chunk]) := by
  obtain ⟨tag, piece⟩ := chunk
  by_cases opened : ∃ last ∈ entries.getLast?, continues tag last = true
  · left
    obtain ⟨⟨tag', value⟩, found, continued⟩ := opened
    obtain ⟨front, rfl⟩ := List.getLast?_eq_some_iff.mp found
    simp only [continues, Bool.and_eq_true, beq_iff_eq, Bool.not_eq_true',
      List.isEmpty_eq_false_iff] at continued
    obtain ⟨⟨rfl, full⟩, some⟩ := continued
    exact ⟨front, value, rfl, full, some, addChunk_of_continues full some⟩
  · right
    have new : ∀ last ∈ entries.getLast?, continues tag last = false := by
      intro last found
      exact Bool.eq_false_iff.mpr fun continued => opened ⟨last, found, continued⟩
    exact ⟨new, addChunk_of_not_continues new⟩

/-- Further chunks of a value go to its end. -/
theorem foldl_addChunk_chunksUpTo {count : Nat} {rest : List UInt8} (enough : rest.length ≤ count)
    (full : value.length % 255 = 0) (some : value ≠ []) :
    ((chunksUpTo 255 count rest).map fun chunk => (tag, chunk)).foldl addChunk
      (entries ++ [(tag, value)]) = entries ++ [(tag, value ++ rest)] := by
  induction count generalizing value rest with
  | zero =>
    have none : rest = [] := List.length_eq_zero_iff.mp (by omega)
    simp [chunksUpTo, none]
  | succ count ih =>
    cases rest with
    | nil => simp [chunksUpTo]
    | cons x rest =>
      rw [chunksUpTo, List.map_cons, List.foldl_cons, addChunk_of_continues full some]
      by_cases last : (x :: rest).drop 255 = []
      · rw [last]
        have whole : (x :: rest).take 255 = x :: rest := by
          rw [List.take_of_length_le (List.drop_eq_nil_iff.mp last)]
        cases count <;> simp [chunksUpTo, whole]
      · have long : 255 < (x :: rest).length := Nat.not_le.mp (mt List.drop_eq_nil_of_le last)
        rw [ih]
        · rw [List.append_assoc, List.take_append_drop]
        · rw [List.length_drop]
          omega
        · rw [List.length_append, List.length_take]
          omega
        · simp [some]

/-- The chunks of an entry that starts afresh make up the entry. -/
theorem foldl_addChunk_entryChunks_new
    (new : ∀ last ∈ entries.getLast?, continues tag last = false) :
    (entryChunks (tag, value)).foldl addChunk entries = entries ++ [(tag, value)] := by
  unfold entryChunks
  split
  · rename_i empty
    simp only at empty
    rw [List.foldl_cons, addChunk_of_not_continues new, empty]
    rfl
  · rename_i nonempty
    cases value with
    | nil => exact absurd rfl nonempty
    | cons x rest =>
      simp only [chunks, List.length_cons, chunksUpTo, List.map_cons, List.foldl_cons]
      rw [addChunk_of_not_continues new]
      by_cases last : (x :: rest).drop 255 = []
      · rw [last]
        have whole : (x :: rest).take 255 = x :: rest := by
          rw [List.take_of_length_le (List.drop_eq_nil_iff.mp last)]
        cases rest.length <;> simp [chunksUpTo, whole]
      · have long : 255 < (x :: rest).length := Nat.not_le.mp (mt List.drop_eq_nil_of_le last)
        rw [foldl_addChunk_chunksUpTo]
        · rw [List.take_append_drop]
        · rw [List.length_drop, List.length_cons]
          omega
        · rw [List.length_take]
          omega
        · simp

/-- The chunks of an entry have the effect of one chunk that holds the whole value: the first
of them goes where that chunk would go, and the others follow it. -/
theorem foldl_addChunk_entryChunks (entries : List (UInt8 × List UInt8))
    (entry : UInt8 × List UInt8) :
    (entryChunks entry).foldl addChunk entries = addChunk entries entry := by
  obtain ⟨tag, value⟩ := entry
  rcases addChunk_cases entries (tag, value) with
    ⟨front, earlier, rfl, full, some, added⟩ | ⟨new, added⟩
  · unfold entryChunks
    split
    · rename_i empty
      simp only at empty
      rw [empty]
      rfl
    · rw [added]
      exact foldl_addChunk_chunksUpTo (Nat.le_refl _) full some
  · rw [added]
    exact foldl_addChunk_entryChunks_new new

end Value

/-- No entry takes in the chunks of its successor. -/
def Separated (entries : List (UInt8 × List UInt8)) : Prop :=
  entries.IsChain fun first second => continues second.1 first = false

/-- Two neighbours stay apart unless they have the same tag and the first of them ends with a
full chunk. -/
theorem continues_eq_false_iff {first second : UInt8 × List UInt8} :
    continues second.1 first = false ↔
      ¬ (first.1 = second.1 ∧ first.2 ≠ [] ∧ 255 ∣ first.2.length) := by
  rw [← Bool.not_eq_true, not_iff_not, continues]
  simp only [Bool.and_eq_true, beq_iff_eq, Bool.not_eq_true', List.isEmpty_eq_false_iff,
    Nat.dvd_iff_mod_eq_zero]
  tauto

/-- The entries of an encoded message are taken in one after the other, as if each were a
chunk. -/
theorem decode_encode_eq_foldl (values : TlvValues) :
    decode values.encode = .ok ⟨values.entries.foldl addChunk []⟩ := by
  rw [decode_encode_eq_chunks, List.foldl_flatMap]
  simp only [foldl_addChunk_entryChunks]

theorem separated_concat {entries : List (UInt8 × List UInt8)} {entry : UInt8 × List UInt8} :
    Separated (entries ++ [entry]) ↔
      Separated entries ∧ ∀ last ∈ entries.getLast?, continues entry.1 last = false := by
  simp [Separated, List.isChain_append]

theorem foldl_addChunk_of_separated {front entries : List (UInt8 × List UInt8)}
    (separated : Separated (front ++ entries)) :
    entries.foldl addChunk front = front ++ entries := by
  induction entries generalizing front with
  | nil => simp
  | cons entry entries ih =>
    rw [List.append_cons front entry entries] at separated ⊢
    have new := (separated_concat.mp (List.IsChain.left_of_append separated)).2
    rw [List.foldl_cons, addChunk_of_not_continues new]
    exact ih separated

/-- A message whose entries stay apart is read back unchanged. -/
theorem decode_encode {values : TlvValues} (separated : Separated values.entries) :
    decode values.encode = .ok values := by
  have apart : Separated ([] ++ values.entries) := separated
  rw [decode_encode_eq_foldl, foldl_addChunk_of_separated apart, List.nil_append]

theorem length_addChunk_le (entries : List (UInt8 × List UInt8)) (chunk : UInt8 × List UInt8) :
    (addChunk entries chunk).length ≤ entries.length + 1 := by
  rcases addChunk_cases entries chunk with ⟨front, value, rfl, _, _, added⟩ | ⟨_, added⟩
  · simp [added]
  · simp [added]

theorem length_foldl_addChunk_le (front entries : List (UInt8 × List UInt8)) :
    (entries.foldl addChunk front).length ≤ front.length + entries.length := by
  induction entries generalizing front with
  | nil => simp
  | cons entry entries ih =>
    calc (entries.foldl addChunk (addChunk front entry)).length
        ≤ (addChunk front entry).length + entries.length := ih _
      _ ≤ front.length + (entries.length + 1) := by
        have := length_addChunk_le front entry
        omega

theorem separated_of_foldl_addChunk {front entries : List (UInt8 × List UInt8)}
    (separated : Separated front) (same : entries.foldl addChunk front = front ++ entries) :
    Separated (front ++ entries) := by
  induction entries generalizing front with
  | nil => simpa using separated
  | cons entry entries ih =>
    rw [List.foldl_cons] at same
    rcases addChunk_cases front entry with ⟨front, value, rfl, _, _, added⟩ | ⟨new, added⟩
    · have short :=
        length_foldl_addChunk_le (addChunk (front ++ [(entry.1, value)]) entry) entries
      rw [same, added] at short
      simp only [List.length_append, List.length_cons] at short
      omega
    · rw [List.append_cons front entry entries] at same ⊢
      rw [added] at same
      exact ih (separated_concat.mpr ⟨separated, new⟩) same

/-- Whether an entry continues its predecessor depends only on its tag, which a chunk taken in
later does not change. -/
theorem Separated.addChunk {entries : List (UInt8 × List UInt8)} (separated : Separated entries)
    (chunk : UInt8 × List UInt8) : Separated (addChunk entries chunk) := by
  rcases addChunk_cases entries chunk with ⟨front, value, rfl, _, _, added⟩ | ⟨new, added⟩
  · rw [added]
    obtain ⟨apart, new⟩ := separated_concat.mp separated
    exact separated_concat.mpr ⟨apart, new⟩
  · rw [added]
    exact separated_concat.mpr ⟨separated, new⟩

theorem decodeLoop_separated {fuel : Nat} {entries : List (UInt8 × List UInt8)}
    {data : List UInt8} {values : TlvValues} (separated : Separated entries)
    (decoded : decodeLoop fuel entries data = .ok values) : Separated values.entries := by
  fun_induction decodeLoop fuel entries data with
  | case1 fuel entries =>
    cases decoded
    exact separated
  | case2 => contradiction
  | case3 => contradiction
  | case4 => contradiction
  | case5 fuel entries tag len rest enough ih => exact ih (separated.addChunk _) decoded

theorem decode_separated {data : List UInt8} {values : TlvValues}
    (decoded : decode data = .ok values) : Separated values.entries :=
  decodeLoop_separated List.isChain_nil decoded

/-- A message is read back exactly when no entry is followed by one with its tag after a value
of a positive multiple of 255 bytes. No message that was itself decoded has such neighbours, so
decoding is unchanged by one more round trip. -/
theorem decode_encode_iff :
    (∀ values : TlvValues, decode values.encode = .ok values ↔
      values.entries.IsChain fun first second =>
        ¬ (first.1 = second.1 ∧ first.2 ≠ [] ∧ 255 ∣ first.2.length)) ∧
    ∀ (data : List UInt8) (values : TlvValues), decode data = .ok values →
      (values.entries.IsChain fun first second =>
        ¬ (first.1 = second.1 ∧ first.2 ≠ [] ∧ 255 ∣ first.2.length)) ∧
      decode values.encode = decode data := by
  simp only [← continues_eq_false_iff]
  constructor
  · intro values
    constructor
    · intro same
      rw [decode_encode_eq_foldl] at same
      have entries : values.entries.foldl TlvValues.addChunk [] = [] ++ values.entries :=
        congrArg TlvValues.entries (Except.ok.inj same)
      exact separated_of_foldl_addChunk List.isChain_nil entries
    · exact decode_encode
  · intro data values decoded
    have separated := decode_separated decoded
    exact ⟨separated, by rw [decode_encode separated, decoded]⟩

/-- A value of 255 bytes goes on in the next entry with its tag, and ends at another tag. -/
theorem decode_encode_iff_full :
    let full := List.replicate 255 7
    let data := 6 :: 255 :: full ++ [6, 1, 2, 9, 1, 3]
    (decode data = .ok ⟨[(6, full ++ [2]), (9, [3])]⟩ ∧
      decode (encode ⟨[(6, full ++ [2]), (9, [3])]⟩) = decode data) ∧
    decode (encode ⟨[(6, full), (9, [3])]⟩) = .ok ⟨[(6, full), (9, [3])]⟩ := by
  intro full data
  have decoded : decode data = .ok ⟨[(6, full ++ [2]), (9, [3])]⟩ := by decide +kernel
  exact ⟨⟨decoded, (decode_encode_iff.2 _ _ decoded).2⟩,
    (decode_encode_iff.1 ⟨[(6, full), (9, [3])]⟩).mpr (by simp)⟩

end Shairplay.Crypto.TlvValues
