import TezosWallet.Operation.Error

/-!
# Fields of contents

Contents come as JSON objects. A field that is null counts as absent. Numbers may be JSON integers
or plain numerals in strings. Whatever is wrong with a field is reported with the kind of the
content and the name of the field; the objects nested in a content report its kind.

## Main definitions

* `Fields` — the members of an object in a content of some kind.
* `Fields.get`, `Fields.optional` — required and optional fields.
* `Fields.natural`, `Fields.int32`, `Fields.address`, … — fields of a type.
-/

namespace TezosWallet

/-- The members of an object that belongs to a content of the given kind. -/
structure Fields where
  kind : Content.Kind
  entries : List (String × Json)

namespace Fields

variable (fields : Fields)

/-- The error that a field of the object is wrong. -/
def invalid (field : String) (fault : FieldFault) : ForgeError :=
  .invalidField fields.kind field fault

/-- A result about a field, with its fault made the field's error. -/
def checked {ε α : Type} (field : String) (cause : ε → FieldFault) (result : Except ε α) :
    Except ForgeError α :=
  result.mapError fun fault => fields.invalid field (cause fault)

/-- An optional field. -/
def optional (field : String) : Option Json :=
  match Json.lookup field fields.entries with
  | some .null | none => none
  | some value => some value

/-- A required field. -/
def get (field : String) : Except ForgeError Json :=
  (fields.optional field).elim (.error (fields.invalid field .missing)) .ok

/-- A required string. -/
def text (field : String) : Except ForgeError String := do
  match ← fields.get field with
  | .string text => pure text
  | _ => throw (fields.invalid field .notString)

/-- A required array. -/
def items (field : String) : Except ForgeError (List Json) := do
  match ← fields.get field with
  | .array items => pure items
  | _ => throw (fields.invalid field .notArray)

/-- A required object, as fields of the same content. -/
def nested (field : String) : Except ForgeError Fields := do
  match ← fields.get field with
  | .members entries => pure ⟨fields.kind, entries⟩
  | _ => throw (fields.invalid field .notObject)

/-- The natural number of sixty-four bits that a JSON value is or writes, or what is wrong. -/
def naturalOf : Json → Except FieldFault Nat
  | .string text =>
    match Numeral.natural? text with
    | some n => if n < Nat.pow 2 64 then .ok n else .error (.notNatural text)
    | none => .error (.notNatural text)
  | .number (.integer value) =>
    if 0 ≤ value ∧ value < Nat.pow 2 64 then .ok value.toNat
    else .error (.notNatural (toString value))
  | .number (.double value) => .error (.notNatural (Json.renderDouble value))
  | _ => .error .notNumber

/-- The integer of thirty-two bits that a JSON value is or writes, or what is wrong. -/
def int32Of : Json → Except FieldFault Int
  | .string text =>
    match Numeral.integer? text with
    | some n => if -Int.pow 2 31 ≤ n ∧ n < Int.pow 2 31 then .ok n else .error (.notInt32 text)
    | none => .error (.notInt32 text)
  | .number (.integer value) =>
    if -Int.pow 2 31 ≤ value ∧ value < Int.pow 2 31 then .ok value
    else .error (.notInt32 (toString value))
  | .number (.double value) => .error (.notInt32 (Json.renderDouble value))
  | _ => .error .notNumber

/-- A required natural number of sixty-four bits. -/
def natural (field : String) : Except ForgeError Nat := do
  let value ← fields.get field
  fields.checked field id (naturalOf value)

/-- A required natural number of sixty-four bits, as a word. -/
def uint64 (field : String) : Except ForgeError UInt64 := do
  let n ← fields.natural field
  pure (UInt64.ofNat n)

/-- A required natural number below a bound. -/
def below (bound : Nat) (field : String) : Except ForgeError Nat := do
  let n ← fields.natural field
  if n < bound then pure n else throw (fields.invalid field (.outOfRange n))

/-- A required integer of thirty-two bits. -/
def int32 (field : String) : Except ForgeError Int32 := do
  let value ← fields.get field
  let n ← fields.checked field id (int32Of value)
  pure (Int32.ofInt n)

/-- A required address. -/
def address (field : String) : Except ForgeError Address := do
  let text ← fields.text field
  fields.checked field .address (Address.ofText text)

/-- An optional address. -/
def optionalAddress (field : String) : Except ForgeError (Option Address) :=
  match fields.optional field with
  | none => pure none
  | some _ => some <$> fields.address field

/-- A text as a hash of the given version. -/
def hashOf (field : String) (version : Version) (text : String) :
    Except ForgeError (FixedBytes 32) :=
  fields.checked field .identifier (Base58Check.decodeFixed 32 text version.bytes)

/-- A required hash. -/
def hash (version : Version) (field : String) : Except ForgeError (FixedBytes 32) := do
  let text ← fields.text field
  fields.hashOf field version text

/-- Required bytes in hexadecimal, as many as given. -/
def hex (size : Nat) (field : String) : Except ForgeError (FixedBytes size) := do
  let text ← fields.text field
  let bytes ← fields.checked field .notHex (Hex.decode text)
  match FixedBytes.ofBytes? size bytes with
  | some fixed => pure fixed
  | none => throw (fields.invalid field (.wrongSize size bytes.length))

/-- A required signature in either written form. -/
def signature (field : String) : Except ForgeError (FixedBytes 64) := do
  let text ← fields.text field
  fields.checked field .identifier (Signature.bytesOfText text)

/-- A required public key. -/
def publicKey (field : String) : Except ForgeError PublicKey := do
  let text ← fields.text field
  fields.checked field .address (PublicKey.ofText text)

/-- A required tree. -/
def micheline (field : String) : Except ForgeError Micheline := do
  let value ← fields.get field
  fields.checked field .micheline (Micheline.ofJson value)

end Fields

end TezosWallet
