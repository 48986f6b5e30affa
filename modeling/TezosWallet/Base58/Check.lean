import TezosWallet.Base58
import TezosWallet.Hash.Sha256

/-!
# Base58Check texts

An identifier is its version bytes, its payload and a four-byte checksum, written in base 58. The
checksum is the head of the doubled SHA-256 digest of what stands before it.

## Main definitions

* `Base58Check.encode`, `Base58Check.decode` — payloads to texts and back.
* `Base58Check.decodeFixed` — decoding that also fixes the size of the payload.
* `Base58Check.Error` — the first check that a text fails.
-/

namespace TezosWallet.Base58Check

/-- Why a text is not an identifier of a given version. -/
inductive Error
  /-- The text is not written in base 58. -/
  | notBase58 (fault : Base58.Error)
  /-- The decoded bytes are fewer than the version and the checksum need, or, where the size of
  the payload is fixed, not as many as it takes. -/
  | invalidLength (expected actual : Nat)
  /-- The decoded bytes begin with another version. -/
  | wrongVersion
  /-- The last four bytes are not the checksum of the others. -/
  | wrongChecksum
  deriving DecidableEq, Repr

/-- The wording of an error. -/
def Error.message : Error → String
  | .notBase58 fault => s!"Base58 decode error: {fault.message}"
  | .invalidLength expected actual =>
    s!"Invalid length: expected at least {expected} bytes, got {actual}"
  | .wrongVersion => "Invalid prefix"
  | .wrongChecksum => "Invalid checksum"

/-- The number of checksum bytes. -/
def checksumSize : Nat := 4

/-- The checksum of a byte string. -/
def checksum (bytes : Bytes) : Bytes :=
  (Sha256.digest (Sha256.digest bytes).toBytes).toBytes.take checksumSize

/-- The text of a payload behind version bytes. -/
def encode (version payload : Bytes) : String :=
  Base58.encode (version ++ payload ++ checksum (version ++ payload))

/-- The payload of a text behind version bytes. -/
def decode (text : String) (version : Bytes) : Except Error Bytes := do
  let raw ← (Base58.decode text).mapError .notBase58
  if raw.length < version.length + checksumSize then
    throw (.invalidLength (version.length + checksumSize) raw.length)
  if raw.take version.length ≠ version then
    throw .wrongVersion
  let body := raw.take (raw.length - checksumSize)
  if raw.drop (raw.length - checksumSize) ≠ checksum body then
    throw .wrongChecksum
  pure (body.drop version.length)

/-- The payload of a text behind version bytes, which must have `size` bytes. -/
def decodeFixed (size : Nat) (text : String) (version : Bytes) :
    Except Error (FixedBytes size) := do
  let payload ← decode text version
  match FixedBytes.ofBytes? size payload with
  | some fixed => pure fixed
  | none =>
    throw (.invalidLength (version.length + size + checksumSize)
      (version.length + payload.length + checksumSize))

end TezosWallet.Base58Check
