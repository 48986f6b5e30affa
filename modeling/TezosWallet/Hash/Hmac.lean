import TezosWallet.Hash.Sha256
import TezosWallet.Hash.Sha512

/-!
# Keyed hashing and password stretching

HMAC hashes a message twice, each time after a block made from the key. A key longer than a
block is hashed first. PBKDF2 with HMAC-SHA-512 stretches a password: a block of key material is
the exclusive or of a chain of tags, the first of them of the salt and the block's index.

## Main definitions

* `Hmac.sha256` — the tag under SHA-256.
* `Hmac.Sha512Key` — a key prepared for SHA-512, with both key blocks already mixed in.
* `Pbkdf2.deriveBlock` — the first sixty-four bytes of key material.
-/

namespace TezosWallet.Hmac

/-- A key block: the key completed by zeros to `size` bytes, each combined with a mask. -/
def keyBlock (size : Nat) (mask : UInt8) (key : Bytes) : Bytes :=
  (key ++ List.replicate (size - key.length) 0).map (· ^^^ mask)

/-- The tag of a message under SHA-256. -/
def sha256 (key message : Bytes) : FixedBytes 32 :=
  let key := if key.length > 64 then (Sha256.digest key).toBytes else key
  let inner := Sha256.digest (keyBlock 64 0x36 key ++ message)
  Sha256.digest (keyBlock 64 0x5c key ++ inner.toBytes)

/-- A key prepared for SHA-512: the chaining values after the inner and the outer key block. -/
structure Sha512Key where
  inner : Sha512.State
  outer : Sha512.State

namespace Sha512Key

/-- Prepares a key. -/
def ofBytes (key : Bytes) : Sha512Key :=
  let key := if key.length > 128 then (Sha512.digest key).toBytes else key
  let start (mask : UInt8) :=
    Sha512.compress Sha512.initial (.ofBlock (keyBlock 128 mask key))
  ⟨start 0x36, start 0x5c⟩

/-- Mixes a digest and its padding, one block together, into the chaining value after a key
block. -/
@[inline] def finish (s x : Sha512.State) : Sha512.State :=
  Sha512.compress s
    ⟨x.a, x.b, x.c, x.d, x.e, x.f, x.g, x.h, 0x8000000000000000, 0, 0, 0, 0, 0, 0, 1536⟩

/-- The tag of a message. -/
def tag (key : Sha512Key) (message : Bytes) : Sha512.State :=
  finish key.outer (Sha512.absorb key.inner 128 message)

/-- The tag of a message that is itself a digest. -/
def tagOfDigest (key : Sha512Key) (message : Sha512.State) : Sha512.State :=
  finish key.outer (finish key.inner message)

end Sha512Key

end TezosWallet.Hmac

namespace TezosWallet.Pbkdf2

/-- Wordwise exclusive or. -/
@[inline] def xor (x y : Sha512.State) : Sha512.State :=
  ⟨x.a ^^^ y.a, x.b ^^^ y.b, x.c ^^^ y.c, x.d ^^^ y.d, x.e ^^^ y.e, x.f ^^^ y.f, x.g ^^^ y.g,
    x.h ^^^ y.h⟩

/-- Prolongs the chain of tags by `n`, the last one so far being `u` and their sum `t`. -/
def chain (key : Hmac.Sha512Key) : (n : Nat) → (u t : Sha512.State) → Sha512.State
  | 0, _, t => t
  | n + 1, u, t =>
    let u' := key.tagOfDigest u
    chain key n u' (xor t u')

/-- The first block of key material that a password and a salt give after `rounds` rounds. -/
def deriveBlock (password salt : Bytes) (rounds : Nat) : FixedBytes 64 :=
  let key := Hmac.Sha512Key.ofBytes password
  let first := key.tag (salt ++ Bytes.ofNatBE 4 1)
  (chain key (rounds - 1) first first).toBytes

end TezosWallet.Pbkdf2
