import TezosWallet.Key.Basic

/-!
# Importing keys

Secrets come as raw bytes, as hexadecimal or base64 texts, as Base58Check identifiers, as
mnemonics, and encrypted under a password. All ways end in `Key.ofBytes`, and blanks around a text
are ignored.

## Main definitions

* `Key.ofBytes`, `Key.ofHex`, `Key.ofBase64` — raw secrets.
* `Key.ofSecretText` — written secrets.
* `Key.ofMnemonic` — mnemonics.
* `Key.ofEncryptedText` — encrypted secrets.
-/

namespace TezosWallet.Key

/-- The key of a raw secret. On Ed25519 the seed may be followed by its public key, which must be
the right one. -/
def ofBytes (curve : Curve) (bytes : Bytes) : Except KeyError Key :=
  if h : bytes.length = 32 then ofSecret curve ⟨bytes, h⟩
  else if h : curve = .ed25519 ∧ bytes.length = 64 then do
    let key ← ofSecret curve ⟨bytes.take 32, by simp [h.2]⟩
    if key.publicKey.bytes = bytes.drop 32 then pure key else throw .publicKeyMismatch
  else .error (.invalidLength 32 bytes.length)

/-- The key of a raw secret in hexadecimal. -/
def ofHex (curve : Curve) (text : String) : Except KeyError Key := do
  let bytes ← (Hex.decode (Text.trim text)).mapError .notHex
  ofBytes curve bytes

/-- The key of a raw secret in base64. -/
def ofBase64 (curve : Curve) (text : String) : Except KeyError Key := do
  let bytes ← (Base64.decode (Text.trim text)).mapError .notBase64
  ofBytes curve bytes

/-- The version that a written secret of a curve is read under. On Ed25519 the length of the text
tells a bare seed from a seed with its public key. -/
def versionOfText (curve : Curve) (text : String) : Version :=
  if curve = .ed25519 ∧ text.utf8ByteSize = Version.edskSeed.textLength then .edskSeed
  else curve.secretKeyVersion

/-- The key of a written secret. Where no curve is given, the text's tag tells it. -/
def ofSecretText (text : String) (curve : Option Curve) : Except KeyError Key :=
  let text := Text.trim text
  match curve.or (Curve.ofText? text) with
  | none => .error (.unknownTag (Text.lead 4 text))
  | some curve => do
    let bytes ← (Base58Check.decode text (versionOfText curve text).bytes).mapError .notIdentifier
    ofBytes curve bytes

/-- The key of a mnemonic: the first half of the key material that it gives with the passphrase,
which is the e-mail address and the password in one. -/
def ofMnemonic (curve : Curve) (phrase email password : String) : Except KeyError Key := do
  let mnemonic ← (Mnemonic.ofText phrase).mapError .mnemonic
  ofBytes curve ((mnemonic.seed (email ++ password)).toBytes.take 32)

/-- The key of an encrypted secret. -/
def ofEncryptedText (text password : String) : Except KeyError Key :=
  let text := Text.trim text
  match Curve.ofTextAmong? Curve.encryptedSecretTags text with
  | none => .error (.unknownTag (Text.lead 5 text))
  | some curve => do
    let payload ←
      (Base58Check.decode text curve.encryptedSecretVersion.bytes).mapError .notIdentifier
    let secret ← (EncryptedSecret.decrypt (Bytes.utf8 password) payload).mapError
      .ofEncryptedSecret
    ofBytes curve secret

end TezosWallet.Key
