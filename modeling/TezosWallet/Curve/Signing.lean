import TezosWallet.Curve.Ecdsa
import TezosWallet.Curve.Edwards25519
import TezosWallet.Hash.Blake2b
import TezosWallet.Signature

/-!
# Signing on the three curves

Every curve signs the thirty-two-byte digest of a message. On Secp256k1 a signature has two
forms; signing gives the one with the smaller second number and verification refuses the other.

## Main definitions

* `Curve.derivePublicKey` — the public key of a secret.
* `Curve.sign`, `Curve.verify` — signatures of a message, without a watermark.
* `CurveError` — why a secret is refused.
-/

namespace TezosWallet

/-- Why a curve operation fails. -/
inductive CurveError
  /-- The secret is no proper scalar of the curve. -/
  | keyDerivation (curve : Curve)
  /-- No signature comes about. -/
  | signing (curve : Curve)
  deriving DecidableEq, Repr

/-- The wording of an error. -/
def CurveError.message : CurveError → String
  | .keyDerivation curve => s!"Key derivation failed on {curve.name}: signature error"
  | .signing curve => s!"Signing failed on {curve.name}: signature error"

namespace Curve

/-- The number of bytes of a secret. -/
def secretSize : Nat := 32

/-- The public key of a secret. -/
def derivePublicKey (curve : Curve) (secret : FixedBytes 32) : Except CurveError Bytes :=
  match curve with
  | ed25519 => .ok (Edwards25519.publicKey secret).toBytes
  | secp256k1 => ((Ecdsa.publicKey? .secp256k1 secret).elim (.error (.keyDerivation curve)) .ok)
  | p256 => ((Ecdsa.publicKey? .p256 secret).elim (.error (.keyDerivation curve)) .ok)

/-- An ECDSA signature of a digest, refused if the secret is out of range. -/
def signDigest (curve : Curve) (C : ShortCurve) (secret digest : FixedBytes 32) :
    Except CurveError Ecdsa.Pair :=
  match Ecdsa.scalar? C secret with
  | none => .error (.keyDerivation curve)
  | some n => (Ecdsa.sign? C n digest).elim (.error (.signing curve)) .ok

/-- The signature of a message under a secret. -/
def sign (curve : Curve) (message : Bytes) (secret : FixedBytes 32) : Except CurveError Signature :=
  let digest := Blake2b.digest256 message
  match curve with
  | ed25519 => .ok ⟨curve, Edwards25519.sign secret digest.toBytes⟩
  | secp256k1 => do
    let pair ← signDigest curve .secp256k1 secret digest
    pure ⟨curve, (pair.lower .secp256k1).toBytes⟩
  | p256 => do
    let pair ← signDigest curve .p256 secret digest
    pure ⟨curve, pair.toBytes⟩

/-- Whether sixty-four bytes are a signature of a message for a public key. Bytes that are no
public key or no signature make none. -/
def verify (curve : Curve) (message : Bytes) (signature : FixedBytes 64) (publicKey : Bytes) :
    Bool :=
  let digest := Blake2b.digest256 message
  match curve with
  | ed25519 =>
    match FixedBytes.ofBytes? 32 publicKey with
    | some key => Edwards25519.verify key digest.toBytes signature
    | none => false
  | secp256k1 =>
    match ShortCurve.secp256k1.decode? publicKey, Ecdsa.Pair.ofBytes? .secp256k1 signature with
    | some key, some pair => pair.isLow .secp256k1 && Ecdsa.verify .secp256k1 key digest pair
    | _, _ => false
  | p256 =>
    match ShortCurve.p256.decode? publicKey, Ecdsa.Pair.ofBytes? .p256 signature with
    | some key, some pair => Ecdsa.verify .p256 key digest pair
    | _, _ => false

end Curve

end TezosWallet
