import Shairplay.Crypto.ChachaTransport.Framing
import Shairplay.Lib.Deframer

/-!
# Frames of an arbitrary wire

Where frames begin and end is decided by the length fields alone. Whether they open depends on
the context, frame by frame. So a wire that arrives in pieces has the same frames as one that
arrives at once, and the first frame that does not open is the same too.
-/

namespace Shairplay.Crypto

open Lib Bytes CipherContext

/-- Wait for a complete frame and cut it off. -/
def nextFrame (data : List UInt8) : Verdict (List UInt8) :=
  if data.length < 2 ∨ data.length < frameLen data then .more
  else .item (data.take (frameLen data)) (frameLen data)

/-- There is no other decision. -/
theorem nextFrame_cases (data : List UInt8) :
    nextFrame data = .more ∧ Incomplete data ∨
      nextFrame data = .item (data.take (frameLen data)) (frameLen data) ∧
        2 ≤ data.length ∧ frameLen data ≤ data.length := by
  by_cases piece : data.length < 2 ∨ data.length < frameLen data
  · exact .inl ⟨if_pos piece, piece⟩
  · exact .inr ⟨if_neg piece, by omega, by omega⟩

variable {data : List UInt8}

theorem nextFrame_ne_skip {n : Nat} : nextFrame data ≠ .skip n := by
  intro skips
  rcases nextFrame_cases data with ⟨waits, -⟩ | ⟨cut, -⟩
  · cases waits.symm.trans skips
  · cases cut.symm.trans skips

theorem nextFrame_ne_stop : nextFrame data ≠ .stop := by
  intro stops
  rcases nextFrame_cases data with ⟨waits, -⟩ | ⟨cut, -⟩
  · cases waits.symm.trans stops
  · cases cut.symm.trans stops

theorem incomplete_of_waits (waits : nextFrame data = .more) : Incomplete data := by
  rcases nextFrame_cases data with ⟨-, piece⟩ | ⟨cut, -⟩
  · exact piece
  · cases cut.symm.trans waits

theorem nextFrame_item {data frame : List UInt8} {n : Nat} (cut : nextFrame data = .item frame n) :
    n = frameLen data ∧ frame = data.take n ∧ 2 ≤ data.length ∧ n ≤ data.length := by
  rcases nextFrame_cases data with ⟨waits, -⟩ | ⟨cut', field, complete⟩
  · cases waits.symm.trans cut
  · cases cut'.symm.trans cut
    exact ⟨rfl, rfl, field, complete⟩

theorem frameLen_pos (data : List UInt8) : 0 < frameLen data := by
  simp only [frameLen]
  omega

theorem frameLen_append (field : 2 ≤ data.length) (more : List UInt8) :
    frameLen (data ++ more) = frameLen data := by
  rw [frameLen, frameLen, List.take_append_of_le_length field]

theorem nextFrame_append (more : List UInt8) (there : nextFrame data ≠ .more) :
    nextFrame (data ++ more) = nextFrame data := by
  rcases nextFrame_cases data with ⟨waits, -⟩ | ⟨cut, field, complete⟩
  · exact absurd waits there
  · have same := frameLen_append field more
    rw [cut, nextFrame, same, if_neg (by rw [List.length_append]; omega),
      List.take_append_of_le_length complete]

def framing : Deframer UInt8 (List UInt8) where
  next := nextFrame
  skip_pos skip := absurd skip nextFrame_ne_skip
  item_pos cut := ⟨(nextFrame_item cut).1 ▸ frameLen_pos _, (nextFrame_item cut).2.2.2⟩
  stable := nextFrame_append

namespace CipherContext

def openFrame (aead : Aead) (ctx : CipherContext) (frame : List UInt8) :
    Option (CipherContext × List UInt8) :=
  if ctx.counter = counterLimit then none
  else if leNat (frame.take 2) = 0 then none
  else (aead.decrypt ctx.key ctx.nonce (frame.take 2) (frame.drop 2)).map fun block =>
    (ctx.next, block)

/-- Open frames one after the other; all of them or nothing. -/
def openFrames (aead : Aead) : CipherContext → List (List UInt8) →
    Option (CipherContext × List (List UInt8))
  | ctx, [] => some (ctx, [])
  | ctx, frame :: frames =>
    (ctx.openFrame aead frame).bind fun opened =>
      (openFrames aead opened.1 frames).map fun rest => (rest.1, opened.2 :: rest.2)

variable {aead : Aead}

theorem openFrames_append (ctx : CipherContext) (first second : List (List UInt8)) :
    ctx.openFrames aead (first ++ second) =
      (ctx.openFrames aead first).bind fun opened =>
        (opened.1.openFrames aead second).map fun rest => (rest.1, opened.2 ++ rest.2) := by
  induction first generalizing ctx with
  | nil => simp [openFrames]
  | cons frame first ih =>
    rw [List.cons_append, openFrames, openFrames]
    cases ctx.openFrame aead frame with
    | none => rfl
    | some opened =>
      simp only [Option.bind_some, ih]
      cases opened.1.openFrames aead first with
      | none => rfl
      | some rest => simp [Option.map_map, Function.comp_def]

/-- One round of `decrypt` on a complete frame. -/
theorem decryptFrames_item {data frame : List UInt8} {n : Nat}
    (cut : nextFrame data = .item frame n) (ctx : CipherContext) (fuel : Nat) :
    (ctx.openFrame aead frame = none →
      ∃ e, ctx.decryptFrames aead (fuel + 1) data = (ctx, .error e)) ∧
    ∀ next block, ctx.openFrame aead frame = some (next, block) →
      ctx.decryptFrames aead (fuel + 1) data =
        match next.decryptFrames aead fuel (data.drop n) with
        | (final, .error e) => (final, .error e)
        | (final, .ok (plain, consumed)) => (final, .ok (block ++ plain, n + consumed)) := by
  obtain ⟨rfl, rfl, field, complete⟩ := nextFrame_item cut
  have front : (data.take (frameLen data)).take 2 = data.take 2 := by
    rw [List.take_take, Nat.min_eq_left (by simp only [frameLen]; omega)]
  have body : (data.take (frameLen data)).drop 2 =
      (data.drop 2).take (leNat (data.take 2) + tagLen) := by
    rw [List.drop_take, frameLen]
    congr 1
    omega
  rw [decryptFrames, if_neg (by omega), openFrame, front, body]
  by_cases limit : ctx.counter = counterLimit
  · rw [if_pos limit, if_pos limit]
    exact ⟨fun _ => ⟨_, rfl⟩, by rintro _ _ ⟨⟩⟩
  · rw [if_neg limit, if_neg limit]
    by_cases zero : leNat (data.take 2) = 0
    · rw [if_pos zero, if_pos zero]
      exact ⟨fun _ => ⟨_, rfl⟩, by rintro _ _ ⟨⟩⟩
    · rw [if_neg zero, if_neg zero]
      cases aead.decrypt ctx.key ctx.nonce (data.take 2)
          ((data.drop 2).take (leNat (data.take 2) + tagLen)) with
      | none => exact ⟨fun _ => ⟨_, rfl⟩, by rintro _ _ ⟨⟩⟩
      | some block =>
        constructor
        · rintro ⟨⟩
        · rintro _ _ ⟨⟩
          rfl

/-- `decrypt` opens the frames of the data, and fails if one of them does not open. -/
theorem decryptFrames_scans {s : Scan UInt8 (List UInt8)} (scans : framing.Scans data s)
    {fuel : Nat} (enough : data.length ≤ fuel) (ctx : CipherContext) :
    (ctx.openFrames aead s.items = none →
      ∃ final e, ctx.decryptFrames aead fuel data = (final, .error e)) ∧
    ∀ final blocks, ctx.openFrames aead s.items = some (final, blocks) →
      ctx.decryptFrames aead fuel data =
        (final, .ok (blocks.flatten, data.length - s.rest.length)) := by
  induction scans generalizing ctx fuel with
  | more waits =>
    constructor
    · rintro ⟨⟩
    · rintro _ _ ⟨⟩
      rw [decryptFrames_of_incomplete (incomplete_of_waits waits), Nat.sub_self]
      rfl
  | stop stops => exact absurd stops nextFrame_ne_stop
  | skip skips => exact absurd skips nextFrame_ne_skip
  | @item data frame n s cut rest ih =>
    have inside := framing.item_pos cut
    have left := rest.rest_suffix.length_le
    rw [List.length_drop] at left
    obtain ⟨fuel, rfl⟩ : ∃ k, fuel = k + 1 := ⟨fuel - 1, by omega⟩
    obtain ⟨fails, opens⟩ := decryptFrames_item cut ctx fuel
    rw [openFrames]
    cases opened : ctx.openFrame aead frame with
    | none =>
      obtain ⟨e, failed⟩ := fails opened
      exact ⟨fun _ => ⟨ctx, e, failed⟩, by rintro _ _ ⟨⟩⟩
    | some first =>
      obtain ⟨next, block⟩ := first
      have later := @ih fuel (by rw [List.length_drop]; omega) next
      rw [opens next block opened, Option.bind_some]
      cases others : next.openFrames aead s.items with
      | none =>
        obtain ⟨final, e, failed⟩ := later.1 others
        rw [failed]
        exact ⟨fun _ => ⟨final, e, rfl⟩, by rintro _ _ ⟨⟩⟩
      | some rest =>
        rw [later.2 rest.1 rest.2 others]
        constructor
        · rintro ⟨⟩
        · rintro _ _ ⟨⟩
          have total : n + (data.length - n - s.rest.length) =
              data.length - s.rest.length := by omega
          rw [List.flatten_cons, List.length_drop]
          dsimp only
          rw [total]

/-- The blocks of the frames in the data, with the context behind them, if all of them open. -/
def blocksIn (aead : Aead) (ctx : CipherContext) (data : List UInt8) :
    Option (CipherContext × List (List UInt8)) :=
  ctx.openFrames aead (framing.scan data).items

def waiting (data : List UInt8) : List UInt8 := (framing.scan data).rest

theorem decrypt_of_blocksIn {ctx final : CipherContext}
    {blocks : List (List UInt8)} (opened : ctx.blocksIn aead data = some (final, blocks)) :
    ctx.decrypt aead data = (final, .ok (blocks.flatten, data.length - (waiting data).length)) :=
  (decryptFrames_scans (Deframer.scans_scan data) (Nat.le_refl _) ctx).2 final blocks opened

theorem decrypt_of_blocksIn_none {ctx : CipherContext} (fails : ctx.blocksIn aead data = none) :
    ∃ final e, ctx.decrypt aead data = (final, .error e) :=
  (decryptFrames_scans (Deframer.scans_scan data) (Nat.le_refl _) ctx).1 fails

theorem waiting_suffix (data : List UInt8) : waiting data <:+ data :=
  (Deframer.scans_scan data).rest_suffix

theorem framing_goes (data : List UInt8) : (framing.scan data).stopped = false := by
  have scans := framing.scans_scan data
  generalize framing.scan data = s at scans ⊢
  induction scans with
  | more => rfl
  | stop stops => exact absurd stops nextFrame_ne_stop
  | skip _ _ ih => exact ih
  | item _ _ ih => exact ih

theorem blocksIn_eq_nil {ctx final : CipherContext}
    {blocks : List (List UInt8)} (opened : ctx.blocksIn aead data = some (final, blocks))
    (all : (waiting data).length = data.length) : blocks = [] := by
  have none : (framing.scan data).items = [] := by
    by_contra some
    have less := (framing.scans_scan data).length_rest_lt some
    exact absurd all (Nat.ne_of_lt less)
  rw [blocksIn, none] at opened
  cases opened
  rfl

/-- What waits is a piece of a frame. -/
theorem waiting_incomplete (data : List UInt8) : Incomplete (waiting data) :=
  incomplete_of_waits ((Deframer.scans_scan data).waits (framing_goes data))

theorem scan_append (xs ys : List UInt8) :
    framing.scan (xs ++ ys) =
      { framing.scan (waiting xs ++ ys) with
        items := (framing.scan xs).items ++ (framing.scan (waiting xs ++ ys)).items } :=
  ((Deframer.scans_scan xs).append (framing_goes xs) (Deframer.scans_scan _)).scan_eq

theorem waiting_append (xs ys : List UInt8) : waiting (xs ++ ys) = waiting (waiting xs ++ ys) := by
  rw [waiting, scan_append]
  rfl

/-- Data that arrives later is opened behind what was opened before. -/
theorem blocksIn_append (ctx : CipherContext) (xs ys : List UInt8) :
    ctx.blocksIn aead (xs ++ ys) =
      (ctx.blocksIn aead xs).bind fun opened =>
        (opened.1.blocksIn aead (waiting xs ++ ys)).map fun rest =>
          (rest.1, opened.2 ++ rest.2) := by
  rw [blocksIn, scan_append, openFrames_append]
  rfl

end CipherContext

end Shairplay.Crypto
