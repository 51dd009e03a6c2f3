import Shairplay.Crypto.ChachaTransport.Framing

/-!
# An ideal cipher under the transport

The ledger lists the encryptions of the sender, each with the nonce of its own counter.
If only these decrypt, then a receiver that counts its frames can only get the next
entry of the ledger, whatever bytes it is fed.
-/

namespace Shairplay.Crypto

open Lib Bytes

/-- One encryption of the sender. -/
structure Sealed where
  nonce : List UInt8
  aad : List UInt8
  block : List UInt8
  ct : List UInt8
  deriving DecidableEq

/-- An ideal cipher, as seen under one key: what decrypts is what the sender encrypted with
the same nonce and the same associated data. -/
def Aead.IdealFor (aead : Aead) (key : List UInt8) (ledger : List Sealed) : Prop :=
  ∀ nonce aad ct block, aead.decrypt key nonce aad ct = some block →
    ⟨nonce, aad, block, ct⟩ ∈ ledger

def nonceAt (counter : Nat) : List UInt8 := [0, 0, 0, 0] ++ leBytes 8 counter

theorem nonceAt_inj {a b : Nat} (ha : a < 2 ^ 64) (hb : b < 2 ^ 64) (same : nonceAt a = nonceAt b) :
    a = b :=
  leBytes_inj ha hb (List.append_cancel_left same)

namespace CipherContext

variable {aead : Aead}

def sealedBlocks (aead : Aead) : CipherContext → List (List UInt8) → List Sealed
  | _, [] => []
  | ctx, block :: blocks =>
    match aead.encrypt ctx.key ctx.nonce (lengthField block) block with
    | none => []
    | some ct => ⟨ctx.nonce, lengthField block, block, ct⟩ :: sealedBlocks aead ctx.next blocks

/-- Entry `i` of a ledger was made with counter `i`. -/
def Numbered (ledger : List Sealed) : Prop :=
  ∀ i entry, ledger[i]? = some entry → i < 2 ^ 64 ∧ entry.nonce = nonceAt i

/-- A run of the sender that succeeds seals every block under its own counter. -/
theorem sealedBlocks_of_ok {ctx final : CipherContext} {blocks : List (List UInt8)}
    {wire : List UInt8} (encrypted : ctx.encryptBlocks aead blocks = (final, .ok wire)) :
    (ctx.sealedBlocks aead blocks).map Sealed.block = blocks ∧
      ∀ i entry, (ctx.sealedBlocks aead blocks)[i]? = some entry →
        ctx.counter.toNat + i < 2 ^ 64 ∧ entry.nonce = nonceAt (ctx.counter.toNat + i) := by
  induction blocks generalizing ctx wire with
  | nil => simp [sealedBlocks]
  | cons block blocks ih =>
    rw [encryptBlocks] at encrypted
    split at encrypted
    · cases encrypted
    · rename_i more
      split at encrypted
      · cases encrypted
      · rename_i ct hct
        split at encrypted
        · cases encrypted
        · rename_i rest hrest
          cases encrypted
          obtain ⟨whole, numbered⟩ := ih hrest
          rw [sealedBlocks, hct]
          refine ⟨congrArg (block :: ·) whole, ?_⟩
          intro i entry found
          cases i with
          | zero =>
            cases found
            exact ⟨ctx.counter.toNat_lt, rfl⟩
          | succ i =>
            have later := numbered i entry found
            have counted := toNat_next more
            rw [next] at counted
            rwa [counted, Nat.add_assoc, Nat.add_comm 1 i] at later

/-- Whatever a receiver decrypts continues the ledger where it stands. -/
theorem decryptFrames_ledger {key : List UInt8} {ledger : List Sealed}
    (ideal : aead.IdealFor key ledger) (numbered : Numbered ledger) {fuel : Nat}
    {ctx final : CipherContext} {data plain : List UInt8} {consumed : Nat}
    (sameKey : ctx.key = key) (within : ctx.counter.toNat ≤ ledger.length)
    (decrypted : ctx.decryptFrames aead fuel data = (final, .ok (plain, consumed))) :
    final.key = key ∧ final.counter.toNat ≤ ledger.length ∧
      (ledger.take ctx.counter.toNat).flatMap Sealed.block ++ plain =
        (ledger.take final.counter.toNat).flatMap Sealed.block := by
  induction fuel generalizing ctx data plain consumed with
  | zero =>
    cases decrypted
    exact ⟨sameKey, within, by simp⟩
  | succ fuel ih =>
    rw [decryptFrames] at decrypted
    split at decrypted
    · cases decrypted
      exact ⟨sameKey, within, by simp⟩
    · split at decrypted
      · cases decrypted
      · rename_i more
        split at decrypted
        · cases decrypted
        · split at decrypted
          · cases decrypted
          · rename_i block opened
            split at decrypted
            · cases decrypted
            · rename_i rest used hrest
              cases decrypted
              rw [sameKey] at opened
              -- the entry with this nonce is the one the receiver is waiting for
              obtain ⟨i, found⟩ := List.getElem?_of_mem (ideal _ _ _ _ opened)
              obtain ⟨small, nonce⟩ := numbered i _ found
              have here : ctx.counter.toNat = i := nonceAt_inj ctx.counter.toNat_lt small nonce
              subst here
              obtain ⟨inside, entry⟩ := List.getElem?_eq_some_iff.mp found
              have counted := toNat_next more
              have withinNext : ctx.next.counter.toNat ≤ ledger.length := by
                rw [counted]
                exact inside
              obtain ⟨keyAfter, withinAfter, whole⟩ := ih (by exact sameKey) withinNext hrest
              refine ⟨keyAfter, withinAfter, ?_⟩
              rw [← whole, counted, List.take_succ_eq_append_getElem inside, entry,
                List.flatMap_append]
              simp

end CipherContext

end Shairplay.Crypto
