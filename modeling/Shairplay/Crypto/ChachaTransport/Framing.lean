import Shairplay.Crypto.ChachaTransport

/-!
# Frames of the encrypted transport

`Framed` relates the blocks a sender encrypts to the frames it emits, counter by
counter. Frames that lie in the data are decrypted completely, and a piece of a frame
behind them is left alone; any prefix of the wire splits into such frames and such a
piece.
-/

namespace Shairplay.Crypto

open Lib Bytes Segment

/-- What the transport needs of the cipher on blocks it produces: encryption succeeds,
appends a tag of 16 bytes, and is inverted by decryption. -/
structure Aead.Inverts (aead : Aead) : Prop where
  open_seal : ∀ key nonce aad msg, msg.length ≤ maxBlockLen →
    ∃ ct, aead.encrypt key nonce aad msg = some ct ∧ ct.length = msg.length + tagLen ∧
      aead.decrypt key nonce aad ct = some msg

def maxFrameLen : Nat := 2 + maxBlockLen + tagLen

/-- A piece of a frame: its length field or its block is not complete. -/
def Incomplete (tail : List UInt8) : Prop :=
  tail.length < 2 ∨ tail.length < CipherContext.frameLen tail

namespace CipherContext

variable {aead : Aead}

/-- The context after one more block. -/
def next (ctx : CipherContext) : CipherContext := { ctx with counter := ctx.counter + 1 }

/-- Blocks, their frames, and the contexts before and after. -/
inductive Framed (aead : Aead) :
    CipherContext → List (List UInt8) → List (List UInt8) → CipherContext → Prop
  | nil {ctx : CipherContext} : Framed aead ctx [] [] ctx
  | cons {ctx final : CipherContext} {block ct : List UInt8} {blocks frames : List (List UInt8)} :
      ctx.counter ≠ counterLimit → block ≠ [] → block.length ≤ maxBlockLen →
      ct.length = block.length + tagLen →
      aead.decrypt ctx.key ctx.nonce (lengthField block) ct = some block →
      Framed aead ctx.next blocks frames final →
      Framed aead ctx (block :: blocks) ((lengthField block ++ ct) :: frames) final

theorem leNat_lengthField {block : List UInt8} (fits : block.length ≤ maxBlockLen) :
    leNat (lengthField block) = block.length :=
  leNat_leBytes (by simp only [maxBlockLen] at fits; omega)

section Frame

variable {block ct : List UInt8}

@[simp] theorem take_two_frame (rest : List UInt8) :
    (lengthField block ++ rest).take 2 = lengthField block := by
  simp [lengthField]

theorem frameLen_frame (fits : block.length ≤ maxBlockLen) (rest : List UInt8) :
    frameLen (lengthField block ++ rest) = 2 + block.length + tagLen := by
  rw [frameLen, take_two_frame, leNat_lengthField fits]

theorem length_frame (length : ct.length = block.length + tagLen) :
    (lengthField block ++ ct).length = 2 + block.length + tagLen := by
  rw [List.length_append, length, lengthField, length_leBytes]
  omega

end Frame

theorem toNat_next {ctx : CipherContext} (more : ctx.counter ≠ counterLimit) :
    ctx.next.counter.toNat = ctx.counter.toNat + 1 := by
  have bound := ctx.counter.toNat_lt
  have below : ctx.counter.toNat ≠ counterLimit.toNat := fun h => more (UInt64.toNat_inj.mp h)
  have limit : counterLimit.toNat = 2 ^ 64 - 1 := rfl
  rw [next, UInt64.toNat_add]
  simp only [UInt64.toNat_one]
  omega

theorem counter_ne_limit {ctx : CipherContext} (room : ctx.counter.toNat < 2 ^ 64 - 1) :
    ctx.counter ≠ counterLimit := by
  intro h
  rw [h] at room
  exact absurd room (by decide)

/-- A sender with counters left frames all of its blocks. -/
theorem encryptBlocks_framed (inverts : aead.Inverts) {ctx : CipherContext}
    {blocks : List (List UInt8)}
    (bounds : ∀ block ∈ blocks, block ≠ [] ∧ block.length ≤ maxBlockLen)
    (room : ctx.counter.toNat + blocks.length < 2 ^ 64) :
    ∃ frames final, ctx.encryptBlocks aead blocks = (final, .ok frames.flatten) ∧
      Framed aead ctx blocks frames final := by
  induction blocks generalizing ctx with
  | nil => exact ⟨[], ctx, rfl, .nil⟩
  | cons block blocks ih =>
    rw [List.length_cons] at room
    have more : ctx.counter ≠ counterLimit := counter_ne_limit (by omega)
    obtain ⟨nonempty, fits⟩ := bounds block (by simp)
    obtain ⟨ct, sealed, length, opened⟩ :=
      inverts.open_seal ctx.key ctx.nonce (lengthField block) block fits
    have left : ctx.next.counter.toNat + blocks.length < 2 ^ 64 := by
      rw [toNat_next more]
      omega
    obtain ⟨frames, final, rest, framed⟩ :=
      ih (fun b hb => bounds b (List.mem_cons_of_mem _ hb)) left
    refine ⟨(lengthField block ++ ct) :: frames, final, ?_,
      .cons more nonempty fits length opened framed⟩
    rw [encryptBlocks, if_neg more, sealed]
    simp only [next] at rest
    simp only [rest, List.flatten_cons]

/-- Whatever a sender returns is framed. -/
theorem framed_of_encryptBlocks (inverts : aead.Inverts) {ctx final : CipherContext}
    {blocks : List (List UInt8)} {wire : List UInt8}
    (bounds : ∀ block ∈ blocks, block ≠ [] ∧ block.length ≤ maxBlockLen)
    (sent : ctx.encryptBlocks aead blocks = (final, .ok wire)) :
    ∃ frames, wire = frames.flatten ∧ Framed aead ctx blocks frames final := by
  induction blocks generalizing ctx wire with
  | nil =>
    cases sent
    exact ⟨[], rfl, .nil⟩
  | cons block blocks ih =>
    obtain ⟨nonempty, fits⟩ := bounds block List.mem_cons_self
    obtain ⟨ct, sealed, length, opened⟩ :=
      inverts.open_seal ctx.key ctx.nonce (lengthField block) block fits
    rw [encryptBlocks] at sent
    split at sent
    · cases sent
    · next more =>
        rw [sealed] at sent
        dsimp only at sent
        split at sent
        · cases sent
        · next rest =>
            cases sent
            obtain ⟨frames, rfl, framed⟩ :=
              ih (fun b mem => bounds b (List.mem_cons_of_mem block mem)) rest
            exact ⟨_, rfl, .cons more nonempty fits length opened framed⟩

theorem Framed.append {ctx middle final : CipherContext}
    {blocks frames blocks' frames' : List (List UInt8)}
    (first : Framed aead ctx blocks frames middle)
    (second : Framed aead middle blocks' frames' final) :
    Framed aead ctx (blocks ++ blocks') (frames ++ frames') final := by
  induction first with
  | nil => exact second
  | cons more nonempty fits length opened _ ih =>
    exact .cons more nonempty fits length opened (ih second)

/-- Encrypt plaintexts in order, one after the other on the wire. -/
def encryptAll (aead : Aead) : CipherContext → List (List UInt8) →
    CipherContext × Except CryptoError (List UInt8)
  | ctx, [] => (ctx, .ok [])
  | ctx, plaintext :: plaintexts =>
    match ctx.encrypt aead plaintext with
    | (ctx, .error e) => (ctx, .error e)
    | (ctx, .ok wire) =>
      match encryptAll aead ctx plaintexts with
      | (ctx, .error e) => (ctx, .error e)
      | (ctx, .ok rest) => (ctx, .ok (wire ++ rest))

def blocksOf (plaintexts : List (List UInt8)) : List (List UInt8) :=
  plaintexts.flatMap (chunks maxBlockLen)

theorem blocksOf_bounds {plaintexts : List (List UInt8)} {block : List UInt8}
    (mem : block ∈ blocksOf plaintexts) : block ≠ [] ∧ block.length ≤ maxBlockLen := by
  obtain ⟨plaintext, _, mem⟩ := List.mem_flatMap.mp mem
  exact chunks_bounds (by decide) mem

theorem blocksOf_flatten (plaintexts : List (List UInt8)) :
    (blocksOf plaintexts).flatten = plaintexts.flatten := by
  induction plaintexts with
  | nil => rfl
  | cons plaintext plaintexts ih =>
    rw [blocksOf, List.flatMap_cons, List.flatten_append, chunks_flatten (by decide),
      List.flatten_cons]
    exact congrArg (plaintext ++ ·) ih

theorem encryptBlocks_append (ctx : CipherContext) (first second : List (List UInt8)) :
    ctx.encryptBlocks aead (first ++ second) =
      match ctx.encryptBlocks aead first with
      | (ctx, .error e) => (ctx, .error e)
      | (ctx, .ok wire) =>
        match ctx.encryptBlocks aead second with
        | (ctx, .error e) => (ctx, .error e)
        | (ctx, .ok rest) => (ctx, .ok (wire ++ rest)) := by
  induction first generalizing ctx with
  | nil =>
    simp only [List.nil_append, encryptBlocks]
    split <;> simp_all
  | cons block first ih =>
    simp only [List.cons_append, encryptBlocks]
    split
    · rfl
    · split
      · rfl
      · rw [ih]
        cases ({ ctx with counter := ctx.counter + 1 } : CipherContext).encryptBlocks aead
            first with
        | mk middle result =>
          cases result with
          | error e => rfl
          | ok wire =>
            dsimp only
            cases middle.encryptBlocks aead second with
            | mk final result => cases result <;> simp

/-- Plaintext boundaries leave no trace on the wire beyond the block boundaries. -/
theorem encryptAll_eq (ctx : CipherContext) (plaintexts : List (List UInt8)) :
    ctx.encryptAll aead plaintexts = ctx.encryptBlocks aead (blocksOf plaintexts) := by
  induction plaintexts generalizing ctx with
  | nil => rfl
  | cons plaintext plaintexts ih =>
    rw [blocksOf, List.flatMap_cons, encryptBlocks_append, encryptAll, encrypt]
    simp only [ih]
    rfl

theorem decryptFrames_of_incomplete {tail : List UInt8} (h : Incomplete tail) (fuel : Nat)
    (ctx : CipherContext) : ctx.decryptFrames aead fuel tail = (ctx, .ok ([], 0)) := by
  cases fuel with
  | zero => rfl
  | succ fuel =>
    rw [decryptFrames]
    exact if_pos h

/-- One complete frame at the start of the data. -/
theorem decryptFrames_frame {ctx : CipherContext} {block ct rest : List UInt8} (fuel : Nat)
    (more : ctx.counter ≠ counterLimit) (nonempty : block ≠ [])
    (fits : block.length ≤ maxBlockLen) (length : ct.length = block.length + tagLen)
    (opened : aead.decrypt ctx.key ctx.nonce (lengthField block) ct = some block) :
    ctx.decryptFrames aead (fuel + 1) (lengthField block ++ ct ++ rest) =
      match ctx.next.decryptFrames aead fuel rest with
      | (final, .error e) => (final, .error e)
      | (final, .ok (plain, consumed)) =>
        (final, .ok (block ++ plain, (lengthField block ++ ct).length + consumed)) := by
  have frameLength := frameLen_frame fits (ct ++ rest)
  have total := length_frame length
  have field : (lengthField block).length = 2 := length_leBytes _ _
  have pos : block.length ≠ 0 := by simpa using nonempty
  have body : ((lengthField block ++ (ct ++ rest)).drop 2).take (block.length + tagLen) = ct := by
    rw [List.drop_append_of_le_length field.ge, List.drop_eq_nil_of_le field.le, List.nil_append,
      List.take_append_of_le_length length.ge, List.take_of_length_le length.le]
  have behind : (lengthField block ++ (ct ++ rest)).drop (2 + block.length + tagLen) = rest := by
    rw [← List.append_assoc, ← total, List.drop_left]
  rw [List.append_assoc, CipherContext.decryptFrames, frameLength, if_neg, if_neg more,
    take_two_frame, leNat_lengthField fits, if_neg pos, body, opened, behind, total]
  · rfl
  · simp only [List.length_append, field, length]
    omega

/-- Frames of the sender are decrypted completely; a piece behind them is left alone. -/
theorem Framed.decryptFrames {ctx final : CipherContext} {blocks frames : List (List UInt8)}
    (framed : Framed aead ctx blocks frames final) {tail : List UInt8} (piece : Incomplete tail)
    {fuel : Nat} (enough : (frames.flatten ++ tail).length ≤ fuel) :
    ctx.decryptFrames aead fuel (frames.flatten ++ tail) =
      (final, .ok (blocks.flatten, frames.flatten.length)) := by
  induction framed generalizing fuel with
  | nil => exact decryptFrames_of_incomplete piece fuel _
  | @cons ctx final block ct blocks frames more nonempty fits length opened framed ih =>
    rw [List.flatten_cons, List.append_assoc, List.length_append, length_frame length] at enough
    cases fuel with
    | zero => omega
    | succ fuel =>
      rw [List.flatten_cons, List.append_assoc,
        decryptFrames_frame fuel more nonempty fits length opened, ih (by omega)]
      simp only [List.flatten_cons, List.length_append]

theorem Framed.decrypt {ctx final : CipherContext} {blocks frames : List (List UInt8)}
    (framed : Framed aead ctx blocks frames final) {tail : List UInt8} (piece : Incomplete tail) :
    ctx.decrypt aead (frames.flatten ++ tail) =
      (final, .ok (blocks.flatten, frames.flatten.length)) :=
  framed.decryptFrames piece (Nat.le_refl _)

theorem Framed.eq_nil {ctx final : CipherContext} {blocks frames : List (List UInt8)}
    (framed : Framed aead ctx blocks frames final) (empty : frames.flatten = []) :
    blocks = [] ∧ frames = [] ∧ final = ctx := by
  cases framed with
  | nil => exact ⟨rfl, rfl, rfl⟩
  | cons => simp [lengthField, leBytes] at empty

/-- A proper start of a frame is a piece. -/
theorem incomplete_of_prefix {block ct tail : List UInt8} (fits : block.length ≤ maxBlockLen)
    (length : ct.length = block.length + tagLen) (start : tail <+: lengthField block ++ ct)
    (proper : tail.length < (lengthField block ++ ct).length) : Incomplete tail := by
  by_cases short : tail.length < 2
  · exact .inl short
  · obtain ⟨rest, whole⟩ := start
    have field : tail.take 2 = lengthField block := by
      rw [← take_two_frame ct, ← whole, List.take_append_of_le_length (by omega)]
    refine .inr ?_
    rw [frameLen, field, leNat_lengthField fits, ← length_frame length]
    exact proper

/-- A prefix of the wire consists of frames and a piece of the next one. -/
theorem Framed.split {ctx final : CipherContext} {blocks frames : List (List UInt8)}
    (framed : Framed aead ctx blocks frames final) {received : List UInt8}
    (start : received <+: frames.flatten) :
    ∃ done todo doneFrames todoFrames middle tail,
      blocks = done ++ todo ∧ frames = doneFrames ++ todoFrames ∧
      Framed aead ctx done doneFrames middle ∧ Framed aead middle todo todoFrames final ∧
      received = doneFrames.flatten ++ tail ∧ Incomplete tail ∧ tail.length < maxFrameLen ∧
      tail.length ≤ todoFrames.flatten.length ∧
      (tail.length = todoFrames.flatten.length → todoFrames = []) := by
  induction framed generalizing received with
  | nil =>
    rw [List.flatten_nil, List.prefix_nil] at start
    exact ⟨[], [], [], [], _, [], rfl, rfl, .nil, .nil, by simp [start], .inl (by simp),
      by simp [maxFrameLen, tagLen], by simp, fun _ => rfl⟩
  | @cons ctx final block ct blocks frames more nonempty fits length opened framed ih =>
    have total := length_frame length
    rw [List.flatten_cons] at start
    by_cases whole : (lengthField block ++ ct).length ≤ received.length
    · -- the first frame has arrived completely
      obtain ⟨rest, rfl⟩ := List.prefix_of_prefix_length_le (List.prefix_append _ _) start whole
      rw [List.prefix_append_right_inj] at start
      obtain ⟨done, todo, doneFrames, todoFrames, middle, tail, rfl, rfl, first, second, rfl,
        piece, bound, shorter, ends⟩ := ih start
      refine ⟨block :: done, todo, (lengthField block ++ ct) :: doneFrames, todoFrames, middle,
        tail, rfl, rfl, .cons more nonempty fits length opened first, second, ?_, piece, bound,
        shorter, ends⟩
      simp only [List.flatten_cons, List.append_assoc]
    · rw [not_le] at whole
      have inFrame : received <+: lengthField block ++ ct :=
        List.prefix_of_prefix_length_le start (List.prefix_append _ _) whole.le
      have piece := incomplete_of_prefix fits length inFrame whole
      refine ⟨[], block :: blocks, [], (lengthField block ++ ct) :: frames, ctx, received, rfl,
        rfl, .nil, .cons more nonempty fits length opened framed, rfl, piece, ?_, ?_, ?_⟩
      · rw [maxFrameLen]
        omega
      · rw [List.flatten_cons, List.length_append]
        omega
      · intro same
        rw [List.flatten_cons, List.length_append] at same
        omega

end CipherContext

end Shairplay.Crypto
