import TezosWallet.Operation.Basic

/-!
# Errors of operations

## Main definitions

* `FieldFault` — what is wrong with a field of a content.
* `ForgeError` — why contents cannot be read or forged.
-/

namespace TezosWallet

/-- What is wrong with a field of a content. -/
inductive FieldFault
  /-- The field is absent or null. -/
  | missing
  /-- The field is no string. -/
  | notString
  /-- The field is no array. -/
  | notArray
  /-- The field is no object. -/
  | notObject
  /-- The field is neither a number nor a string. -/
  | notNumber
  /-- The field, in its written form, is no natural number of sixty-four bits. -/
  | notNatural (text : String)
  /-- The field, in its written form, is no integer of thirty-two bits. -/
  | notInt32 (text : String)
  /-- The field is a number that its type cannot hold. -/
  | outOfRange (value : Nat)
  /-- An item of the field is no string. -/
  | notStrings
  /-- An item of the field is no hexadecimal string. -/
  | notHexStrings
  /-- The field is not hexadecimal. -/
  | notHex (fault : Hex.Error)
  /-- The field has the wrong number of bytes. -/
  | wrongSize (expected actual : Nat)
  /-- The field is no address or public key. -/
  | address (fault : AddressError)
  /-- The field is no hash or signature. -/
  | identifier (fault : Base58Check.Error)
  /-- The field is no vote. -/
  | notVote (name : String)
  /-- The field is evidence of another kind. -/
  | notEndorsement (kind : String)
  /-- The field is no timestamp. -/
  | timestamp (fault : TimestampError)
  /-- The field is no Micheline. -/
  | micheline (fault : MichelineError)
  /-- The field is an address of another curve, or of a contract. -/
  | notTz1
  /-- The name of an entrypoint is empty or too long. -/
  | entrypointLength (longest : Nat)

/-- The wording of a fault, with what the reader of JSON says of a text that is none. -/
def FieldFault.message (complaint : String → String) : FieldFault → String
  | missing => "missing"
  | notString => "expected a string"
  | notArray => "expected an array"
  | notObject => "expected an object"
  | notNumber => "expected a number"
  | notNatural text => s!"not a natural number: {text}"
  | notInt32 text => s!"not a 32-bit integer: {text}"
  | outOfRange value => s!"out of range: {value}"
  | notStrings => "expected strings"
  | notHexStrings => "expected hex strings"
  | notHex fault => fault.message
  | wrongSize expected actual => s!"expected {expected} bytes, got {actual}"
  | address fault => fault.message
  | identifier fault => fault.message
  | notVote name => s!"expected yay, nay or pass, got {name}"
  | notEndorsement kind => s!"expected an inlined endorsement, got {kind}"
  | timestamp fault => fault.message
  | micheline fault => fault.message complaint
  | notTz1 => "expected a tz1 address"
  | entrypointLength longest => s!"name must be 1 to {longest} bytes long"

/-- Why contents cannot be read or forged. -/
inductive ForgeError
  /-- The kind of a content is absent, or is the name of no kind. -/
  | unknownKind (name : Option String)
  /-- A field of a content is wrong. -/
  | invalidField (kind : Content.Kind) (field : String) (fault : FieldFault)
  /-- The text is no JSON. -/
  | notJson (text : String)
  /-- A content is no object. -/
  | contentNotObject (value : Json)
  /-- The contents are neither an array nor an object. -/
  | contentsNotArray (value : Json)
  /-- The branch is no block hash. -/
  | branch (fault : Base58Check.Error)
  /-- A script or a parameter has no binary form. -/
  | micheline (fault : MichelineError)

/-- The wording of an error, with what the reader of JSON says of a text that is none. -/
def ForgeError.message (complaint : String → String) : ForgeError → String
  | unknownKind name => "Unknown operation kind: " ++ name.getD "<missing>"
  | invalidField kind field fault =>
    s!"Invalid field {field} in {kind.name}: {fault.message complaint}"
  | notJson text => s!"JSON error: {complaint text}"
  | contentNotObject value => s!"JSON error: content must be an object, got {value.render}"
  | contentsNotArray value => s!"JSON error: expected an array of contents, got {value.render}"
  | branch fault => s!"Invalid branch: {fault.message}"
  | micheline fault => s!"Micheline error: {fault.message complaint}"

end TezosWallet
