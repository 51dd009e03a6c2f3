import Shairplay.Crypto.Aes
import Shairplay.Crypto.VideoCipher

/-!
# The two ciphers in counter mode

Mirroring streams go through the cipher of a library, with the rest of a packet as a padded
block; pairing goes through a counter and a block kept by hand. Both add the keystream of one
positional definition, in whatever pieces the text comes.
-/

namespace Shairplay.Crypto

open Lib Lib.Keystream

/-- The packets of a mirroring stream under a key and an initial counter. The library's cipher
takes its counter as a number. -/
def decryptCalls (aes : Block → Block) (iv : Block) (calls : List (List UInt8)) :
    VideoCipher × List UInt8 :=
  Machine.run VideoCipher.decrypt (VideoCipher.new (fun n => (aes (Block.ofValue n)).1) iv.value)
    calls

def encryptCalls (aes : Block → Block) (iv : Block) (calls : List (List UInt8)) :
    AesCtr × List UInt8 :=
  Machine.run AesCtr.encrypt (AesCtr.new aes iv) calls

/-- A rest of one byte leaves the most. -/
theorem VideoCipher.leftoverCount_decrypt_le {c : VideoCipher} (few : c.leftoverCount ≤ 15)
    (payload : List UInt8) : (c.decrypt payload).1.leftoverCount ≤ 15 := by
  have blocks : ∀ (c : VideoCipher) (payload : List UInt8),
      (c.decryptBlocks payload).1.leftoverCount ≤ 15 := by
    intro c payload
    simp only [VideoCipher.decryptBlocks]
    split
    · show 16 - payload.length % 16 ≤ 15
      omega
    · exact Nat.zero_le 15
  simp only [VideoCipher.decrypt]
  split
  · split
    · show c.leftoverCount - min c.leftoverCount payload.length ≤ 15
      omega
    · exact blocks ..
  · exact blocks ..

section

variable (aes : Block → Block) (iv : Block)

theorem decryptCalls_eq (calls : List (List UInt8)) :
    (decryptCalls aes iv calls).2 = xorFrom (AesCtr.keystream aes iv) 0 calls.flatten :=
  (run_xorFrom (AesCtr.keystream aes iv) (fun _ _ text h => h.decrypt text)
    (VideoCipher.at_new _ _) calls).1

theorem encryptCalls_eq (calls : List (List UInt8)) :
    (encryptCalls aes iv calls).2 = xorFrom (AesCtr.keystream aes iv) 0 calls.flatten :=
  (run_xorFrom (AesCtr.keystream aes iv) (fun _ _ text h => h.encrypt text)
    (AesCtr.at_new aes iv) calls).1

end

/-- Whatever the calls, byte `i` of the text is added to byte `i % 16` of the block with counter
`iv + i / 16`, by both ciphers. So the way a text is cut does not matter, they agree, each undoes
itself, and neither keeps a whole block. -/
theorem counterMode (aes : Block → Block) (iv : Block) :
    (∀ (calls : List (List UInt8)) (i : Nat),
      (decryptCalls aes iv calls).2[i]? =
          calls.flatten[i]?.map (· ^^^ AesCtr.keystream aes iv i) ∧
        (encryptCalls aes iv calls).2[i]? =
          calls.flatten[i]?.map (· ^^^ AesCtr.keystream aes iv i)) ∧
    (∀ calls calls' : List (List UInt8), calls.flatten = calls'.flatten →
      (decryptCalls aes iv calls).2 = (decryptCalls aes iv calls').2 ∧
        (encryptCalls aes iv calls).2 = (encryptCalls aes iv calls').2 ∧
        (decryptCalls aes iv calls).2 = (encryptCalls aes iv calls').2) ∧
    (∀ calls calls' : List (List UInt8),
      (calls'.flatten = (decryptCalls aes iv calls).2 →
          (decryptCalls aes iv calls').2 = calls.flatten) ∧
        (calls'.flatten = (encryptCalls aes iv calls).2 →
          (encryptCalls aes iv calls').2 = calls.flatten)) ∧
    ∀ calls : List (List UInt8), (decryptCalls aes iv calls).1.leftoverCount ≤ 15 ∧
      (encryptCalls aes iv calls).1.available ≤ 15 := by
  simp only [decryptCalls_eq, encryptCalls_eq]
  refine ⟨?_, ?_, ?_, ?_⟩
  · intro calls i
    have byte := getElem?_xorFrom (AesCtr.keystream aes iv) 0 calls.flatten i
    rw [Nat.zero_add] at byte
    exact ⟨byte, byte⟩
  · intro calls calls' same
    rw [same]
    exact ⟨rfl, rfl, rfl⟩
  · intro calls calls'
    have cancels : calls'.flatten = xorFrom (AesCtr.keystream aes iv) 0 calls.flatten →
        xorFrom (AesCtr.keystream aes iv) 0 calls'.flatten = calls.flatten := by
      intro encrypted
      rw [encrypted, xorFrom_xorFrom]
    exact ⟨cancels, cancels⟩
  · intro calls
    constructor
    · exact @Machine.run_keeps _ _ _ VideoCipher.decrypt (fun c => c.leftoverCount ≤ 15)
        (fun _ text few => VideoCipher.leftoverCount_decrypt_le few text) _ (Nat.zero_le 15) calls
    · exact @Machine.run_keeps _ _ _ AesCtr.encrypt (fun c => c.available ≤ 15)
        (fun _ text few => AesCtr.available_encrypt_le few text) _ (Nat.zero_le 15) calls

/-- A text cut in three, one of the pieces empty, from the last value of the counter on. -/
theorem counterMode_cut :
    (decryptCalls id ⟨List.replicate 16 255, rfl⟩ [[1], [], [2, 3]]).2 =
      (encryptCalls id ⟨List.replicate 16 255, rfl⟩ [[1, 2, 3]]).2 :=
  ((counterMode id ⟨List.replicate 16 255, rfl⟩).2.1 [[1], [], [2, 3]] [[1, 2, 3]] rfl).2.2

end Shairplay.Crypto
