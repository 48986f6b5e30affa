import TezosWallet.Base58.Version
import TezosWallet.Text.Basic

/-!
# The curves of implicit accounts

Each account that a key controls belongs to one of three curves. The curve fixes the byte that
tags its keys in forged operations, the size of its public keys, and the version bytes of its
identifiers.

## Main definitions

* `Curve` — the curves; `Curve.name` and `Curve.ofName?` are their written names.
* `Curve.tag`, `Curve.ofTag?` — the byte of a curve.
* `Curve.publicKeyVersion` and its siblings — the versions of a curve's identifiers.
* `Curve.ofText?` — the curve that an identifier's first characters tell.
-/

namespace TezosWallet

/-- A curve. -/
inductive Curve
  /-- The curve of `tz1` accounts. -/
  | ed25519
  /-- The curve of `tz2` accounts. -/
  | secp256k1
  /-- The curve of `tz3` accounts. -/
  | p256
  deriving DecidableEq, Repr

namespace Curve

/-- All curves, in the order of their tags. -/
def all : List Curve := [ed25519, secp256k1, p256]

/-- The name of a curve. -/
def name : Curve → String
  | ed25519 => "ed25519"
  | secp256k1 => "secp256k1"
  | p256 => "p256"

/-- A text with its ASCII capitals in lower case. -/
def foldCase (text : String) : String := text.map Char.toLower

/-- The curve of a name or of an address tag, in any case of ASCII letters. -/
def ofName? (text : String) : Option Curve :=
  let folded := foldCase text
  if folded = "ed25519" ∨ folded = "tz1" then some ed25519
  else if folded = "secp256k1" ∨ folded = "tz2" then some secp256k1
  else if folded = "p256" ∨ folded = "nistp256" ∨ folded = "tz3" then some p256
  else none

/-- The byte of a curve in forged keys and key hashes. -/
def tag : Curve → UInt8
  | ed25519 => 0
  | secp256k1 => 1
  | p256 => 2

/-- The curve of a tag byte. -/
def ofTag? (tag : UInt8) : Option Curve := all.find? fun curve => curve.tag = tag

/-- The number of bytes of a public key. -/
def publicKeySize : Curve → Nat
  | ed25519 => 32
  | secp256k1 | p256 => 33

/-- The version of the curve's public key hashes. -/
def addressVersion : Curve → Version
  | ed25519 => .tz1
  | secp256k1 => .tz2
  | p256 => .tz3

/-- The version of the curve's public keys. -/
def publicKeyVersion : Curve → Version
  | ed25519 => .edpk
  | secp256k1 => .sppk
  | p256 => .p2pk

/-- The version of the curve's secret keys. On Ed25519 it is that of a seed with its public key. -/
def secretKeyVersion : Curve → Version
  | ed25519 => .edsk
  | secp256k1 => .spsk
  | p256 => .p2sk

/-- The version of the curve's signatures. -/
def signatureVersion : Curve → Version
  | ed25519 => .edsig
  | secp256k1 => .spsig
  | p256 => .p2sig

/-- The version of the curve's encrypted secrets. -/
def encryptedSecretVersion : Curve → Version
  | ed25519 => .edesk
  | secp256k1 => .spesk
  | p256 => .p2esk

/-- The tags of encrypted secrets. -/
def encryptedSecretTags : List String := ["edesk", "spesk", "p2esk"]

/-- The tags of public keys. -/
def publicKeyTags : List String := ["edpk", "sppk", "p2pk"]

/-- The tags of public key hashes. -/
def addressTags : List String := ["tz1", "tz2", "tz3"]

/-- The tags that tell a curve. No tag begins another. -/
def textTags : List (String × Curve) := [
  ("edesk", ed25519), ("spesk", secp256k1), ("p2esk", p256),
  ("edsig", ed25519), ("spsig", secp256k1), ("p2sig", p256),
  ("edsk", ed25519), ("spsk", secp256k1), ("p2sk", p256),
  ("edpk", ed25519), ("sppk", secp256k1), ("p2pk", p256),
  ("tz1", ed25519), ("tz2", secp256k1), ("tz3", p256)]

/-- The curve that the first characters of an identifier tell. -/
def ofText? (text : String) : Option Curve :=
  (textTags.find? fun entry => Text.hasTag entry.1 text).map (·.2)

/-- The curve of a text that begins with one of the given tags. -/
def ofTextAmong? (tags : List String) (text : String) : Option Curve :=
  if Text.hasTagAmong tags text then ofText? text else none

end Curve

end TezosWallet
