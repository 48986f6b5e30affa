import TezosWallet.Key.Basic

/-!
# Random bytes, and what is made of them

New secrets, phrases and salts are made of random bytes, which come from a source outside. The
source may fail at any draw. What it answers is given in advance, so that what is generated is a
function of it.

## Main definitions

* `Entropy` — the source; `Entropy.take` draws from it.
* `Key.generate` — a key of random bytes.
* `Mnemonic.generate` — a phrase of random bytes.
* `Key.encrypt` — the written secret of a key, encrypted under a random salt.
-/

namespace TezosWallet

/-- A source of random bytes, as what it answers to each draw. -/
structure Entropy where
  /-- The `n` bytes that the draw of a number gives, or why it fails. -/
  draw : (number n : Nat) → Except String (FixedBytes n)

namespace Entropy

/-- The source that repeats a byte for ever. -/
def constant (b : UInt8) : Entropy := ⟨fun _ n => .ok ⟨List.replicate n b, List.length_replicate⟩⟩

/-- Bytes of a source that are set aside for each draw. -/
def sliceSize : Nat := 32

/-- The source that gives the front of one slice of the bytes after the other, and fails when they
are used up. -/
def ofBytes (bytes : Bytes) : Entropy where
  draw number n :=
    (FixedBytes.ofBytes? n ((bytes.drop (sliceSize * number)).take n)).elim
      (.error "no random bytes left") .ok

/-- Draws `n` bytes, and gives the source after that. -/
def take (n : Nat) (entropy : Entropy) : Except String (FixedBytes n × Entropy) := do
  let bytes ← entropy.draw 0 n
  pure (bytes, ⟨fun number => entropy.draw (number + 1)⟩)

end Entropy

/-- Draws a secret at most `attempts` times, until the curve has a key for it. The curve has refused
the one before for `refused`. -/
def Key.draw (curve : Curve) : (attempts : Nat) → (refused : Option KeyError) → Entropy →
    Except KeyError (Key × Entropy)
  | 0, refused, _ => .error (refused.getD (.random "no attempts made"))
  | attempts + 1, _, entropy =>
    match entropy.take 32 with
    | .error cause => .error (.random cause)
    | .ok (secret, entropy) =>
      match Key.ofSecret curve secret with
      | .ok key => .ok (key, entropy)
      | .error fault => Key.draw curve attempts (some fault) entropy

/-- How often a secret is drawn. -/
def Key.drawAttempts : Nat := 16

/-- A key of random bytes, with the source after the bytes used. -/
def Key.generate (curve : Curve) (entropy : Entropy) : Except KeyError (Key × Entropy) :=
  Key.draw curve Key.drawAttempts none entropy

/-- A phrase of `count` words of random bytes, with the source after the bytes used. -/
def Mnemonic.generate (count : Nat) (entropy : Entropy) : Except KeyError (Mnemonic × Entropy) :=
  if isCount count then do
    let (bytes, entropy) ← (entropy.take (entropySize count)).mapError KeyError.random
    pure (ofEntropy count bytes.toBytes, entropy)
  else .error (.mnemonic (.unsupportedCount count))

/-- The payload of a secret under a password and a random salt, with the source after the salt. -/
def EncryptedSecret.encryptSalted (password secret : Bytes) (entropy : Entropy) :
    Except Error (Bytes × Entropy) := do
  let (salt, entropy) ← (entropy.take saltSize).mapError Error.random
  pure (encrypt password salt secret, entropy)

/-- The written secret of a key, encrypted under a password and a random salt, with the source after
the salt. -/
def Key.encrypt (key : Key) (password : String) (entropy : Entropy) :
    Except KeyError (String × Entropy) := do
  let (payload, entropy) ← (EncryptedSecret.encryptSalted (Bytes.utf8 password)
    key.secret.toBytes entropy).mapError KeyError.ofEncryptedSecret
  pure (Base58Check.encode key.curve.encryptedSecretVersion.bytes payload, entropy)

end TezosWallet
