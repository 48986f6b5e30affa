import TezosWallet.Base64
import TezosWallet.EncryptedSecret
import TezosWallet.Mnemonic
import TezosWallet.PublicKey
import TezosWallet.Watermark

/-!
# Keys

A key is a secret with its public key. It is only ever built by deriving the public key from the
secret, and the type keeps the evidence of that.

## Main definitions

* `Key` — a secret with the public key derived from it.
* `Key.ofSecret` — the key of thirty-two secret bytes.
* `Key.address`, `Key.secretText`, `Key.encryptedText` — written forms.
* `Key.sign`, `Key.signWith`, `Key.signHex`, `Key.verify` — signatures behind a watermark.
* `KeyError` — why no key, or no signature, comes about.
-/

namespace TezosWallet

/-- Why a key operation fails. -/
inductive KeyError
  /-- A text is not hexadecimal. -/
  | notHex (fault : Hex.Error)
  /-- A text is not base64. -/
  | notBase64 (fault : Base64.Error)
  /-- A secret has the wrong number of bytes. -/
  | invalidLength (expected actual : Nat)
  /-- The public half of a secret does not belong to its seed. -/
  | publicKeyMismatch
  /-- A text is not an identifier of a secret. -/
  | notIdentifier (fault : Base58Check.Error)
  /-- A text begins with no tag of a secret; its first characters are kept. -/
  | unknownTag (lead : String)
  /-- The curve refuses the secret. -/
  | curve (fault : CurveError)
  /-- The derived public key is malformed. -/
  | publicKey (fault : AddressError)
  /-- A phrase is no mnemonic. -/
  | mnemonic (fault : MnemonicError)
  /-- An encrypted secret does not open under the password. -/
  | invalidPassword
  /-- An encrypted secret cannot be processed. -/
  | encryptedSecret (fault : EncryptedSecret.Error)
  /-- The source of random bytes fails. -/
  | random (cause : String)
  deriving DecidableEq, Repr

/-- The wording of an error. -/
def KeyError.message : KeyError → String
  | .notHex fault => s!"Hex decode error: {fault.message}"
  | .notBase64 fault => s!"Base64 decode error: {fault.message}"
  | .invalidLength expected actual =>
    s!"Invalid secret key length: expected {expected}, got {actual}"
  | .publicKeyMismatch => "Ed25519 secret key carries a public key that does not match its seed"
  | .notIdentifier fault => s!"Base58 error: {fault.message}"
  | .unknownTag lead => s!"Unknown secret key prefix: {lead}"
  | .curve fault => s!"Curve error: {fault.message}"
  | .publicKey fault => s!"Public key error: {fault.message}"
  | .mnemonic fault => s!"Invalid mnemonic: {fault.message}"
  | .invalidPassword => "Invalid password"
  | .encryptedSecret fault => s!"Encrypted secret error: {fault.message}"
  | .random cause => s!"Random generation failed: {cause}"

/-- The error of a key whose encrypted secret does not decrypt. -/
def KeyError.ofEncryptedSecret : EncryptedSecret.Error → KeyError
  | .invalidPassword => .invalidPassword
  | fault => .encryptedSecret fault

/-- A secret with the public key derived from it. -/
structure Key where
  publicKey : PublicKey
  secret : FixedBytes 32
  derives : publicKey.curve.derivePublicKey secret = .ok publicKey.bytes
  deriving DecidableEq

namespace Key

/-- The curve of a key. -/
def curve (key : Key) : Curve := key.publicKey.curve

/-- The key of a secret. -/
def ofSecret (curve : Curve) (secret : FixedBytes 32) : Except KeyError Key :=
  match derives : curve.derivePublicKey secret with
  | .error fault => .error (.curve fault)
  | .ok bytes =>
    if h : bytes.length = curve.publicKeySize then .ok ⟨⟨curve, bytes, h⟩, secret, derives⟩
    else .error (.publicKey (.invalidKeyLength curve curve.publicKeySize bytes.length))

/-- The account that the key controls. -/
def address (key : Key) : Address := key.publicKey.address

/-- The payload of the written secret: on Ed25519 the public key follows the seed. -/
def secretPayload (key : Key) : Bytes :=
  match key.curve with
  | .ed25519 => key.secret.toBytes ++ key.publicKey.bytes
  | .secp256k1 | .p256 => key.secret.toBytes

/-- The written secret. -/
def secretText (key : Key) : String :=
  Base58Check.encode key.curve.secretKeyVersion.bytes key.secretPayload

/-- The written secret, encrypted under a password and a salt. -/
def encryptedText (key : Key) (password : String) (salt : FixedBytes 8) : String :=
  Base58Check.encode key.curve.encryptedSecretVersion.bytes
    (EncryptedSecret.encrypt (Bytes.utf8 password) salt key.secret.toBytes)

/-- A summary that leaves the secret out. -/
def summary (key : Key) : String :=
  let curve := match key.curve with
    | .ed25519 => "Ed25519"
    | .secp256k1 => "Secp256k1"
    | .p256 => "NistP256"
  let publicKey := Text.literal key.publicKey.toText
  "Key \x7b curve: " ++ curve ++ ", public_key: " ++ publicKey ++ ", .. \x7d"

/-- The signature of data as they stand. -/
def signMarked (key : Key) (data : Bytes) : Except KeyError Signature :=
  (key.curve.sign data key.secret).mapError .curve

/-- The signature of a message behind the watermark of operations, which is not added where the
message begins with that byte already. -/
def sign (key : Key) (message : Bytes) : Except KeyError Signature :=
  key.signMarked (Watermark.ensure message)

/-- The signature of a message behind a watermark, whatever the message begins with. -/
def signWith (key : Key) (watermark : Watermark) (message : Bytes) : Except KeyError Signature :=
  key.signMarked (watermark.mark message)

/-- The signature of a message in hexadecimal, with blanks around it ignored. -/
def signHex (key : Key) (message : String) : Except KeyError Signature := do
  let bytes ← (Hex.decode (Text.trim message)).mapError .notHex
  key.sign bytes

/-- Whether a signature is one that `Key.sign` makes of a message. -/
def verify (key : Key) (message : Bytes) (signature : Signature) : Bool :=
  signature.curve = key.curve && key.publicKey.verify (Watermark.ensure message) signature

end Key

end TezosWallet
