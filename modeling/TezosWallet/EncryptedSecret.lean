import TezosWallet.Cipher.Secretbox
import TezosWallet.Hash.Hmac

/-!
# Password-encrypted secrets

An encrypted secret is an eight-byte salt followed by a sealed box. The box's key is stretched
from the password and the salt, so every secret has a key of its own and the fixed nonce of the
box is never used twice with one key.

## Main definitions

* `EncryptedSecret.deriveKey` — the key of the box.
* `EncryptedSecret.encrypt`, `EncryptedSecret.decrypt` — to and from payloads.
* `EncryptedSecret.Error` — why a payload does not decrypt, or cannot be made.
-/

namespace TezosWallet.EncryptedSecret

/-- Bytes of salt at the start of a payload. -/
def saltSize : Nat := 8

/-- Bytes of authentication tag after the salt. -/
def tagSize : Nat := 16

/-- Bytes of the derived key. -/
def keySize : Nat := 32

/-- Rounds of password stretching. -/
def stretchingRounds : Nat := 32768

/-- Why a payload does not decrypt, or cannot be made. -/
inductive Error
  /-- The payload cannot hold a salt and a tag. -/
  | tooShort (expected actual : Nat)
  /-- The tag is wrong: another password, or altered bytes. -/
  | invalidPassword
  /-- The source of random bytes fails. -/
  | random (cause : String)
  deriving DecidableEq, Repr

/-- The wording of an error. -/
def Error.message : Error → String
  | .tooShort expected actual =>
    s!"Encrypted secret too short: expected at least {expected} bytes, got {actual}"
  | .invalidPassword => "Decryption failed (wrong password?)"
  | .random cause => s!"Random generation failed: {cause}"

/-- The key that a password and a salt give. -/
def deriveKey (password salt : Bytes) : FixedBytes keySize :=
  .ofLeading keySize (Pbkdf2.deriveBlock password salt stretchingRounds).toBytes

/-- The payload of a secret under a password and a salt. -/
def encrypt (password : Bytes) (salt : FixedBytes saltSize) (secret : Bytes) : Bytes :=
  salt.toBytes ++ Secretbox.lock (deriveKey password salt.toBytes) secret

/-- The secret in a payload. -/
def decrypt (password payload : Bytes) : Except Error Bytes :=
  if payload.length < saltSize + tagSize then
    .error (.tooShort (saltSize + tagSize) payload.length)
  else
    match Secretbox.unlock (deriveKey password (payload.take saltSize)) (payload.drop saltSize) with
    | some secret => .ok secret
    | none => .error .invalidPassword

end TezosWallet.EncryptedSecret
