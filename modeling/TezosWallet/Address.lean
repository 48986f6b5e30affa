import TezosWallet.Base58.Check
import TezosWallet.Curve.Basic

/-!
# Addresses

An account is either implicit, controlled by a key and named by the hash of its public key, or an
originated contract. Forged operations name accounts in two layouts:

```text
key hash             curve tag, hash (20)
implicit contract    00, curve tag, hash (20)
originated contract  01, hash (20), 00
```

## Main definitions

* `Address` — an account; `Address.toText` and `Address.ofText` are its written form.
* `Address.forgeKeyHash`, `Address.forgeContract` — the two layouts.
* `AddressError` — why a text is no address or public key.
-/

namespace TezosWallet

/-- An account. -/
inductive Address
  /-- An account controlled by a key of the given curve. -/
  | implicit (curve : Curve) (hash : FixedBytes 20)
  /-- A smart contract. -/
  | originated (hash : FixedBytes 20)
  deriving DecidableEq, Repr

/-- Why an address or a public key is refused. -/
inductive AddressError
  /-- The text begins with no tag of its kind; its first characters are kept. -/
  | unknownTag (lead : String)
  /-- The text is not a Base58Check identifier of its kind. -/
  | notIdentifier (fault : Base58Check.Error)
  /-- A public key has another size than its curve's. -/
  | invalidKeyLength (curve : Curve) (expected actual : Nat)
  /-- An originated contract, here in written form, stands where only a key hash may. -/
  | notImplicit (address : String)
  deriving DecidableEq, Repr

/-- The wording of an error. -/
def AddressError.message : AddressError → String
  | .unknownTag lead => s!"Unknown address prefix: {lead}"
  | .notIdentifier fault => s!"Base58 error: {fault.message}"
  | .invalidKeyLength curve expected actual =>
    s!"Invalid public key length for {curve.name}: expected {expected}, got {actual}"
  | .notImplicit address => s!"{address} is not an implicit account"

namespace Address

/-- The number of bytes of a key hash or contract hash. -/
def hashSize : Nat := 20

/-- The hash that names the account. -/
def hash : Address → FixedBytes 20
  | implicit _ hash => hash
  | originated hash => hash

/-- Whether a key controls the account. -/
def isImplicit : Address → Bool
  | implicit .. => true
  | originated _ => false

/-- The written form of an address. -/
def toText : Address → String
  | implicit curve hash => Base58Check.encode curve.addressVersion.bytes hash.toBytes
  | originated hash => Base58Check.encode Version.kt1.bytes hash.toBytes

/-- Reads the written form of an address. -/
def ofText (text : String) : Except AddressError Address :=
  if Text.hasTag "KT1" text then do
    let hash ← (Base58Check.decodeFixed 20 text Version.kt1.bytes).mapError .notIdentifier
    pure (originated hash)
  else
    match Curve.ofTextAmong? Curve.addressTags text with
    | none => .error (.unknownTag (Text.lead 3 text))
    | some curve => do
      let version := curve.addressVersion.bytes
      let hash ← (Base58Check.decodeFixed 20 text version).mapError .notIdentifier
      pure (implicit curve hash)

/-- The layout of a key hash, for sources and delegates. A contract has none. -/
def forgeKeyHash (address : Address) : Except AddressError Bytes :=
  match address with
  | implicit curve hash => .ok (curve.tag :: hash.toBytes)
  | originated _ => .error (.notImplicit address.toText)

/-- The layout of any account, for destinations and packed addresses. -/
def forgeContract : Address → Bytes
  | implicit curve hash => 0x00 :: curve.tag :: hash.toBytes
  | originated hash => 0x01 :: (hash.toBytes ++ [0x00])

end Address

end TezosWallet
