import TezosWallet.Address
import TezosWallet.Curve.Signing

/-!
# Public keys

A public key is checked for its size only; whether the bytes are a point of the curve shows when a
signature is verified. Its forged form is the curve's tag and the bytes.

## Main definitions

* `PublicKey` — a key with its curve, of the curve's size.
* `PublicKey.ofBytes`, `PublicKey.ofText`, `PublicKey.toText` — raw and written forms.
* `PublicKey.address`, `PublicKey.forge`, `PublicKey.verify`.
-/

namespace TezosWallet

/-- A public key with its curve. -/
structure PublicKey where
  curve : Curve
  bytes : Bytes
  length_bytes : bytes.length = curve.publicKeySize
  deriving DecidableEq, Repr

namespace PublicKey

/-- A public key of raw bytes, whose number must be the curve's. -/
def ofBytes (curve : Curve) (bytes : Bytes) : Except AddressError PublicKey :=
  if h : bytes.length = curve.publicKeySize then .ok ⟨curve, bytes, h⟩
  else .error (.invalidKeyLength curve curve.publicKeySize bytes.length)

/-- The account that the key controls. -/
def address (key : PublicKey) : Address := .implicit key.curve (Blake2b.digest160 key.bytes)

/-- The forged form. -/
def forge (key : PublicKey) : Bytes := key.curve.tag :: key.bytes

/-- Whether a signature of a message was made by the matching secret. The curve that the signature
carries is not looked at. -/
def verify (key : PublicKey) (message : Bytes) (signature : Signature) : Bool :=
  key.curve.verify message signature.bytes key.bytes

/-- The written form. -/
def toText (key : PublicKey) : String :=
  Base58Check.encode key.curve.publicKeyVersion.bytes key.bytes

/-- Reads the written form. -/
def ofText (text : String) : Except AddressError PublicKey :=
  match Curve.ofTextAmong? Curve.publicKeyTags text with
  | none => .error (.unknownTag (Text.lead 4 text))
  | some curve => do
    let bytes ← (Base58Check.decode text curve.publicKeyVersion.bytes).mapError .notIdentifier
    ofBytes curve bytes

end PublicKey

end TezosWallet
