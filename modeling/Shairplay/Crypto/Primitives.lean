import Mathlib.Data.List.Basic

/-!
# Interfaces of the cryptographic libraries

The algorithms themselves come from third-party crates. A development over them takes
their functions as parameters and states what it assumes of them where it needs to.
-/

namespace Shairplay.Crypto

/-- Errors from cryptographic operations. -/
inductive CryptoError
  | rsaKey (message : String)
  | rsaDecrypt
  | pairingHandshake (message : String)
  | pairingVerify
  | fairPlay (message : String)
  | aes (message : String)
  | transport (message : String)
  deriving DecidableEq

/-- Authenticated encryption with associated data, as `chacha20poly1305` offers it. The
ciphertext carries its tag at the end. -/
structure Aead where
  encrypt : (key nonce aad msg : List UInt8) → Option (List UInt8)
  decrypt : (key nonce aad msg : List UInt8) → Option (List UInt8)

/-- HKDF with SHA-512: extract with a salt, then expand to `length` bytes. -/
abbrev Hkdf := (salt secret info : List UInt8) → (length : Nat) → Option (List UInt8)

/-- A hash function with 64 bytes of output, such as SHA-512. -/
structure Hash512 where
  hash : List UInt8 → List UInt8
  length_hash : ∀ data, (hash data).length = 64

/-- Ed25519 signatures. A public key may fail to decode as a point. -/
structure Ed25519 where
  publicKey : (seed : List UInt8) → List UInt8
  sign : (seed msg : List UInt8) → List UInt8
  validKey : (key : List UInt8) → Bool
  verify : (key msg signature : List UInt8) → Bool

/-- X25519 key agreement. -/
structure X25519 where
  publicKey : (secret : List UInt8) → List UInt8
  diffieHellman : (secret publicKey : List UInt8) → List UInt8

/-- The third-party algorithms of a build. -/
structure CryptoLib where
  aead : Aead
  hkdf : Hkdf
  sha512 : Hash512
  ed25519 : Ed25519
  x25519 : X25519

end Shairplay.Crypto
