import TezosWallet.Bytes

/-!
# Version bytes of identifiers

Every kind of identifier is written in Base58Check behind version bytes of its own. They are
chosen so that, with a payload of the right size, the text begins with a readable tag and has a
fixed length.

## Main definitions

* `Version` — the kinds of identifier.
* `Version.bytes`, `Version.payloadSize`, `Version.tag`, `Version.textLength` — what a kind fixes.
-/

namespace TezosWallet

/-- A kind of Base58Check identifier. -/
inductive Version
  /-- The hash of an Ed25519 public key. -/
  | tz1
  /-- The hash of a Secp256k1 public key. -/
  | tz2
  /-- The hash of a P-256 public key. -/
  | tz3
  /-- The hash of an originated contract. -/
  | kt1
  /-- An Ed25519 public key. -/
  | edpk
  /-- A Secp256k1 public key. -/
  | sppk
  /-- A P-256 public key. -/
  | p2pk
  /-- An Ed25519 seed. -/
  | edskSeed
  /-- An Ed25519 seed and its public key. -/
  | edsk
  /-- A Secp256k1 secret. -/
  | spsk
  /-- A P-256 secret. -/
  | p2sk
  /-- An encrypted Ed25519 seed. -/
  | edesk
  /-- An encrypted Secp256k1 secret. -/
  | spesk
  /-- An encrypted P-256 secret. -/
  | p2esk
  /-- An Ed25519 signature. -/
  | edsig
  /-- A Secp256k1 signature. -/
  | spsig
  /-- A P-256 signature. -/
  | p2sig
  /-- A signature that does not tell its curve. -/
  | genericSig
  /-- A block hash. -/
  | blockHash
  /-- An operation hash. -/
  | operationHash
  /-- The hash of a block's lists of operations. -/
  | operationListListHash
  /-- A protocol hash. -/
  | protocolHash
  /-- The hash of a block's context. -/
  | contextHash
  /-- The hash of a seed nonce. -/
  | nonceHash
  /-- The hash of a packed script expression. -/
  | scriptExpr
  deriving DecidableEq, Repr

namespace Version

/-- The bytes in front of the payload. -/
def bytes : Version → Bytes
  | tz1 => [0x06, 0xa1, 0x9f]
  | tz2 => [0x06, 0xa1, 0xa1]
  | tz3 => [0x06, 0xa1, 0xa4]
  | kt1 => [0x02, 0x5a, 0x79]
  | edpk => [0x0d, 0x0f, 0x25, 0xd9]
  | sppk => [0x03, 0xfe, 0xe2, 0x56]
  | p2pk => [0x03, 0xb2, 0x8b, 0x7f]
  | edskSeed => [0x0d, 0x0f, 0x3a, 0x07]
  | edsk => [0x2b, 0xf6, 0x4e, 0x07]
  | spsk => [0x11, 0xa2, 0xe0, 0xc9]
  | p2sk => [0x10, 0x51, 0xee, 0xbd]
  | edesk => [0x07, 0x5a, 0x3c, 0xb3, 0x29]
  | spesk => [0x09, 0xed, 0xf1, 0xae, 0x96]
  | p2esk => [0x09, 0x30, 0x39, 0x73, 0xab]
  | edsig => [0x09, 0xf5, 0xcd, 0x86, 0x12]
  | spsig => [0x0d, 0x73, 0x65, 0x13, 0x3f]
  | p2sig => [0x36, 0xf0, 0x2c, 0x34]
  | genericSig => [0x04, 0x82, 0x2b]
  | blockHash => [0x01, 0x34]
  | operationHash => [0x05, 0x74]
  | operationListListHash => [0x1d, 0x9f, 0x6d]
  | protocolHash => [0x02, 0xaa]
  | contextHash => [0x4f, 0xc7]
  | nonceHash => [0x45, 0xdc, 0xa9]
  | scriptExpr => [0x0d, 0x2c, 0x40, 0x1b]

/-- The number of payload bytes of a well-formed identifier. -/
def payloadSize : Version → Nat
  | tz1 | tz2 | tz3 | kt1 => 20
  | sppk | p2pk => 33
  | edsk | edsig | spsig | p2sig | genericSig => 64
  | edesk | spesk | p2esk => 56
  | edpk | edskSeed | spsk | p2sk | blockHash | operationHash | operationListListHash
  | protocolHash | contextHash | nonceHash | scriptExpr => 32

/-- The characters that a well-formed identifier begins with. -/
def tag : Version → String
  | tz1 => "tz1"
  | tz2 => "tz2"
  | tz3 => "tz3"
  | kt1 => "KT1"
  | edpk => "edpk"
  | sppk => "sppk"
  | p2pk => "p2pk"
  | edskSeed => "edsk"
  | edsk => "edsk"
  | spsk => "spsk"
  | p2sk => "p2sk"
  | edesk => "edesk"
  | spesk => "spesk"
  | p2esk => "p2esk"
  | edsig => "edsig"
  | spsig => "spsig1"
  | p2sig => "p2sig"
  | genericSig => "sig"
  | blockHash => "B"
  | operationHash => "o"
  | operationListListHash => "LLo"
  | protocolHash => "P"
  | contextHash => "Co"
  | nonceHash => "nce"
  | scriptExpr => "expr"

/-- The number of characters of a well-formed identifier. -/
def textLength : Version → Nat
  | tz1 | tz2 | tz3 | kt1 => 36
  | edpk | edskSeed | spsk | p2sk | scriptExpr => 54
  | sppk | p2pk => 55
  | edsk | p2sig => 98
  | edesk | spesk | p2esk => 88
  | edsig | spsig => 99
  | genericSig => 96
  | blockHash | operationHash | protocolHash => 51
  | operationListListHash | nonceHash => 53
  | contextHash => 52

end Version

end TezosWallet
