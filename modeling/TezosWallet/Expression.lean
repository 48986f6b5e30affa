import TezosWallet.Address
import TezosWallet.Hash.Blake2b
import TezosWallet.Micheline.Binary
import TezosWallet.Micheline.Json

/-!
# Script expressions

The entry of a big map is addressed by the hash of its packed key. Packing puts a byte in front of
the binary Micheline form; the digest is written as an `expr` identifier. Literals of the common
types are packed directly.

## Main definitions

* `Micheline.pack` — the packed form of a tree.
* `Expression.ofPacked` — the identifier of packed data.
* `Expression.ofInt` and its siblings — the identifiers of typed keys.
* `ExpressionError` — why a key has no identifier.
-/

namespace TezosWallet

/-- Why a key has no identifier. -/
inductive ExpressionError
  /-- The value is no tree, or has no binary form. -/
  | micheline (fault : MichelineError)
  /-- The value is no address, or no key hash. -/
  | address (fault : AddressError)
  /-- The value is not hexadecimal. -/
  | notHex (fault : Hex.Error)

/-- The wording of an error, with what the reader of JSON says of a text that is none. -/
def ExpressionError.message (complaint : String → String) : ExpressionError → String
  | .micheline fault => s!"Micheline error: {fault.message complaint}"
  | .address fault => s!"Address error: {fault.message}"
  | .notHex fault => s!"Hex decode error: {fault.message}"

/-- The byte in front of packed data. -/
def packTag : UInt8 := 0x05

/-- The packed form of a tree. -/
def Micheline.pack (node : Micheline) : Except MichelineError Bytes :=
  (Writer.put [packTag] >> node.write).run

namespace Expression

/-- The identifier of packed data. -/
def ofPacked (packed : Bytes) : String :=
  Base58Check.encode Version.scriptExpr.bytes (Blake2b.digest256 packed).toBytes

/-- The tag of a packed `int` or `nat`. -/
def intTag : UInt8 := 0x00

/-- The tag of a packed `string`. -/
def stringTag : UInt8 := 0x01

/-- The tag of packed `bytes`. -/
def bytesTag : UInt8 := 0x0a

/-- The identifier of a literal, by its tag and what follows the tag. -/
def ofLiteral (tag : UInt8) (payload : Bytes) : String := ofPacked (packTag :: tag :: payload)

/-- The identifier of an `int` key. -/
def ofInt (value : Int) : String := ofLiteral intTag (Zarith.encodeInteger value)

/-- The identifier of a `nat` key, which is packed like an `int`. -/
def ofNat (value : Nat) : String := ofLiteral intTag (Zarith.encodeInteger (Int.ofNat value))

/-- The identifier of a `string` key. -/
def ofString (value : String) : String := ofLiteral stringTag (frame (Bytes.utf8 value))

/-- The identifier of a `bytes` key. -/
def ofBytes (value : Bytes) : String := ofLiteral bytesTag (frame value)

/-- Drops every `0x` from the front of a text. -/
def dropHexMarks : List Char → List Char
  | '0' :: 'x' :: rest => dropHexMarks rest
  | cs => cs

/-- The identifier of a `bytes` key in hexadecimal, behind any number of marks `0x`. -/
def ofHex (text : String) : Except ExpressionError String := do
  let bytes ← (Hex.decode (String.ofList (dropHexMarks text.toList))).mapError .notHex
  pure (ofBytes bytes)

/-- The identifier of an `address` key. -/
def ofAddress (text : String) : Except ExpressionError String := do
  let address ← (Address.ofText text).mapError .address
  pure (ofBytes address.forgeContract)

/-- The identifier of a `key_hash` key. -/
def ofKeyHash (text : String) : Except ExpressionError String := do
  let address ← (Address.ofText text).mapError .address
  let hash ← address.forgeKeyHash.mapError .address
  pure (ofBytes hash)

/-- The identifier of a key given as Micheline in JSON. -/
def ofMicheline (text : String) : Except ExpressionError String := do
  let node ← (Micheline.parse text).mapError .micheline
  let packed ← node.pack.mapError .micheline
  pure (ofPacked packed)

end Expression

end TezosWallet
