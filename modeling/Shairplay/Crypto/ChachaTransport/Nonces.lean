import Shairplay.Crypto.ChachaTransport.Framing
import Shairplay.Lib.Machine

/-!
# Nonces are never reused

A call of `encrypt` may stop part-way, when the counter is used up or the cipher fails. The
blocks before that point have used up their nonces although their frames are dropped. Here a
call is logged with every block it encrypted, returned or not: the counter counts exactly
these blocks and never wraps, so that no nonce comes back, in any sequence of calls.
-/

namespace Shairplay.Crypto

open Lib Machine

namespace CipherContext

/-- A block that the cipher has encrypted, and the context it was encrypted in. -/
structure Sealing where
  context : CipherContext
  block : List UInt8
  ct : List UInt8

def Sealing.nonce (sealing : Sealing) : List UInt8 := sealing.context.nonce

def Sealing.frame (sealing : Sealing) : List UInt8 := lengthField sealing.block ++ sealing.ct

variable (aead : Aead)

/-- The blocks that `encryptBlocks` encrypts before it ends or fails. -/
def sealings : CipherContext → List (List UInt8) → List Sealing
  | _, [] => []
  | ctx, block :: blocks =>
    if ctx.counter = counterLimit then []
    else
      match aead.encrypt ctx.key ctx.nonce (lengthField block) block with
      | none => []
      | some ct => ⟨ctx, block, ct⟩ :: sealings ctx.next blocks

/-- What is known about a call: what was encrypted, and what the caller got. -/
structure EncryptCall where
  sealings : List Sealing
  result : Except CryptoError (List UInt8)

/-- The blocks that were returned to the caller. -/
def EncryptCall.returned (call : EncryptCall) : List Sealing :=
  match call.result with
  | .ok _ => call.sealings
  | .error _ => []

/-- The caller got the frames of the blocks that count as returned. -/
def EncryptCall.Faithful (call : EncryptCall) : Prop :=
  ∀ wire, call.result = .ok wire → wire = call.returned.flatMap Sealing.frame

/-- A call of `encrypt`, logged. -/
def encryptCall (ctx : CipherContext) (plaintext : List UInt8) : CipherContext × List EncryptCall :=
  ((ctx.encrypt aead plaintext).1,
    [⟨ctx.sealings aead (Segment.chunks maxBlockLen plaintext), (ctx.encrypt aead plaintext).2⟩])

/-- Different counters give different nonces. -/
theorem nonce_injective {ctx ctx' : CipherContext} (same : ctx.nonce = ctx'.nonce) :
    ctx.counter = ctx'.counter := by
  have bytes := List.append_cancel_left same
  have number := congrArg Bytes.leNat bytes
  rw [Bytes.leNat_leBytes (UInt64.toNat_lt _), Bytes.leNat_leBytes (UInt64.toNat_lt _)] at number
  exact UInt64.toNat_inj.mp number

/-- Consecutive contexts of one key: the sealings between two values of the counter. -/
inductive Consecutive : CipherContext → List Sealing → CipherContext → Prop
  | nil (ctx : CipherContext) : Consecutive ctx [] ctx
  | cons {ctx final : CipherContext} {rest : List Sealing} (block ct : List UInt8)
      (more : ctx.counter ≠ counterLimit) (next : Consecutive ctx.next rest final) :
      Consecutive ctx (⟨ctx, block, ct⟩ :: rest) final

namespace Consecutive

variable {ctx middle final : CipherContext} {log more : List Sealing}

/-- The counter counts the sealings and does not wrap. -/
theorem counter (h : Consecutive ctx log final) :
    final.counter.toNat = ctx.counter.toNat + log.length := by
  induction h with
  | nil => rfl
  | cons block ct more next ih =>
    rw [ih, toNat_next more, List.length_cons]
    omega

/-- The contexts of the sealings lie between the two. -/
theorem bounds (h : Consecutive ctx log final) :
    ∀ sealing ∈ log, ctx.counter.toNat ≤ sealing.context.counter.toNat ∧
      sealing.context.counter.toNat < final.counter.toNat := by
  induction h with
  | nil =>
    intro sealing mem
    cases mem
  | cons block ct more next ih =>
    have last := next.counter
    have step := toNat_next more
    rw [List.forall_mem_cons]
    constructor
    · dsimp only
      omega
    · intro sealing mem
      have inside := ih sealing mem
      omega

theorem nodup (h : Consecutive ctx log final) : (log.map Sealing.nonce).Nodup := by
  induction h with
  | nil => exact List.nodup_nil
  | cons block ct more next ih =>
    rw [List.map_cons, List.nodup_cons]
    refine ⟨?_, ih⟩
    intro again
    obtain ⟨sealing, mem, same⟩ := List.mem_map.mp again
    have inside := (next.bounds sealing mem).1
    have equal := congrArg UInt64.toNat (nonce_injective same)
    rw [toNat_next more] at inside
    dsimp only at equal
    omega

theorem append (h : Consecutive ctx log middle) (next : Consecutive middle more final) :
    Consecutive ctx (log ++ more) final := by
  induction h with
  | nil => exact next
  | cons block ct more _ ih => exact .cons block ct more (ih next)

end Consecutive

/-- `encryptBlocks` leaves the counter behind the last block that was encrypted, whether it
fails or not, and returns exactly the frames of these blocks if it does not. -/
theorem encryptBlocks_sealings (ctx : CipherContext) (blocks : List (List UInt8)) :
    Consecutive ctx (ctx.sealings aead blocks) (ctx.encryptBlocks aead blocks).1 ∧
      ∀ wire, (ctx.encryptBlocks aead blocks).2 = .ok wire →
        wire = (ctx.sealings aead blocks).flatMap Sealing.frame := by
  induction blocks generalizing ctx with
  | nil =>
    refine ⟨.nil ctx, ?_⟩
    intro wire returned
    cases returned
    rfl
  | cons block blocks ih =>
    rw [encryptBlocks, sealings]
    by_cases exhausted : ctx.counter = counterLimit
    · rw [if_pos exhausted, if_pos exhausted]
      exact ⟨.nil ctx, fun wire failed => by cases failed⟩
    · rw [if_neg exhausted, if_neg exhausted]
      cases sealed : aead.encrypt ctx.key ctx.nonce (lengthField block) block with
      | none => exact ⟨.nil ctx, fun wire failed => by cases failed⟩
      | some ct =>
        obtain ⟨consecutive, frames⟩ := ih ctx.next
        have next : ({ ctx with counter := ctx.counter + 1 } : CipherContext) = ctx.next := rfl
        dsimp only
        rw [next]
        cases rest : ctx.next.encryptBlocks aead blocks with
        | mk final result =>
          rw [rest] at consecutive frames
          cases result with
          | error e =>
            exact ⟨.cons block ct exhausted consecutive, fun wire failed => by cases failed⟩
          | ok later =>
            refine ⟨.cons block ct exhausted consecutive, ?_⟩
            intro wire returned
            cases returned
            rw [List.flatMap_cons, ← frames later rfl]
            rfl

/-- All calls of a context, one after the other. -/
theorem run_encryptCall (ctx : CipherContext) (plaintexts : List (List UInt8)) :
    Consecutive ctx ((run (encryptCall aead) ctx plaintexts).2.flatMap EncryptCall.sealings)
      (run (encryptCall aead) ctx plaintexts).1 := by
  have keeps (s : CipherContext) (log : List EncryptCall) (plaintext : List UInt8)
      (h : Consecutive ctx (log.flatMap EncryptCall.sealings) s) :
      Consecutive ctx ((log ++ (s.encryptCall aead plaintext).2).flatMap EncryptCall.sealings)
        (s.encryptCall aead plaintext).1 := by
    rw [List.flatMap_append]
    apply h.append
    simp only [encryptCall, List.flatMap_singleton]
    exact (s.encryptBlocks_sealings aead _).1
  have start : Consecutive ctx (([] : List EncryptCall).flatMap EncryptCall.sealings) ctx :=
    .nil ctx
  exact run_history keeps start plaintexts

theorem returned_sublist (call : EncryptCall) : call.returned.Sublist call.sealings := by
  unfold EncryptCall.returned
  split
  · exact List.Sublist.refl _
  · exact List.nil_sublist _

/-- Nonces are never reused: in every sequence of `encrypt` calls on one context, failing
calls included, the blocks that were returned have pairwise different nonces, the counter has
gone up by exactly the number of blocks encrypted and so has not wrapped, and different
counters give different nonces. A call that succeeds returns exactly the frames of its
blocks. -/
theorem nonces_not_reused (ctx : CipherContext) (plaintexts : List (List UInt8)) :
    let calls := run (encryptCall aead) ctx plaintexts
    ((calls.2.flatMap EncryptCall.returned).map Sealing.nonce).Nodup ∧
      calls.1.counter.toNat =
        ctx.counter.toNat + (calls.2.flatMap EncryptCall.sealings).length ∧
      (∀ a b : CipherContext, a.counter ≠ b.counter → a.nonce ≠ b.nonce) ∧
      ∀ call ∈ calls.2, call.Faithful := by
  intro calls
  have consecutive : Consecutive ctx (calls.2.flatMap EncryptCall.sealings) calls.1 :=
    ctx.run_encryptCall aead plaintexts
  refine ⟨?_, consecutive.counter, fun a b other same => other (nonce_injective same), ?_⟩
  · refine List.Nodup.sublist ?_ consecutive.nodup
    apply List.Sublist.map
    exact List.Sublist.flatMap_right _ fun call _ => returned_sublist call
  · have keeps (s : CipherContext) (log : List EncryptCall) (plaintext : List UInt8)
        (h : ∀ call ∈ log, call.Faithful) :
        ∀ call ∈ log ++ (s.encryptCall aead plaintext).2, call.Faithful := by
      intro call mem
      rcases List.mem_append.mp mem with earlier | now
      · exact h call earlier
      · obtain rfl := List.mem_singleton.mp now
        intro wire returned
        have frames := (s.encryptBlocks_sealings aead _).2 wire returned
        rw [EncryptCall.returned, returned]
        exact frames
    have start : ∀ call ∈ ([] : List EncryptCall), call.Faithful := by simp
    exact run_history keeps (s := ctx) start plaintexts

end CipherContext

end Shairplay.Crypto
