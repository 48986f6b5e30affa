import TezosWallet.Base58.Check
import TezosWallet.Curve.Basic
import TezosWallet.Hex

/-!
# Signatures

A signature is sixty-four bytes on every curve. The curve shows only in the version of the written
form, and a generic form leaves it out.

## Main definitions

* `Signature` — the bytes with the curve that made them.
* `Signature.toText`, `Signature.ofText` — the written form of the curve.
* `Signature.toGenericText` — the written form that leaves the curve out.
* `Signature.bytesOfText` — the bytes of either written form.
-/

namespace TezosWallet

/-- A signature with its curve. -/
structure Signature where
  curve : Curve
  bytes : FixedBytes 64
  deriving DecidableEq, Repr

namespace Signature

/-- The number of bytes of a signature. -/
def size : Nat := 64

/-- The bytes in hexadecimal. -/
def toHex (signature : Signature) : String := Hex.encode signature.bytes.toBytes

/-- The written form that tells the curve. -/
def toText (signature : Signature) : String :=
  Base58Check.encode signature.curve.signatureVersion.bytes signature.bytes.toBytes

/-- The written form of signature bytes that leaves the curve out. -/
def genericText (bytes : FixedBytes 64) : String :=
  Base58Check.encode Version.genericSig.bytes bytes.toBytes

/-- The written form that leaves the curve out. -/
def toGenericText (signature : Signature) : String := genericText signature.bytes

/-- Reads the written form that tells the curve. -/
def ofText (text : String) : Except Base58Check.Error Signature :=
  match Curve.ofText? text with
  | none => .error .wrongVersion
  | some curve => do
    let bytes ← Base58Check.decodeFixed 64 text curve.signatureVersion.bytes
    pure ⟨curve, bytes⟩

/-- The bytes of a signature in either written form. -/
def bytesOfText (text : String) : Except Base58Check.Error (FixedBytes 64) :=
  if Text.hasTag "sig" text then Base58Check.decodeFixed 64 text Version.genericSig.bytes
  else do
    let signature ← ofText text
    pure signature.bytes

end Signature

end TezosWallet
