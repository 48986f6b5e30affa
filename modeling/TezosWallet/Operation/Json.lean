import TezosWallet.Operation.Fields

/-!
# Contents as JSON

Each kind of content reads its own fields in a fixed order, so the first wrong one is reported.
Other members of the object are not looked at.

## Main definitions

* `Content.ofJson` — the content of a JSON value.
* `Content.parseAll` — the contents of a JSON text: an array of contents, or one of them.
-/

namespace TezosWallet

namespace Fields

variable (fields : Fields)

/-- The fields of operations that an account pays for. -/
def manager : Except ForgeError ManagerFields := do
  let source ← fields.address "source"
  let fee ← fields.uint64 "fee"
  let counter ← fields.uint64 "counter"
  let gasLimit ← fields.uint64 "gas_limit"
  let storageLimit ← fields.uint64 "storage_limit"
  pure ⟨source, fee, counter, gasLimit, storageLimit⟩

/-- The optional call of a contract, by default at the entrypoint `default`. -/
def parameters (field : String) : Except ForgeError (Option Parameters) :=
  match fields.optional field with
  | none => pure none
  | some _ => do
    let call ← fields.nested field
    let entrypoint ← match call.optional "entrypoint" with
      | none => pure "default"
      | some _ => call.text "entrypoint"
    let value ← call.micheline "value"
    pure (some ⟨entrypoint, value⟩)

/-- The script of a new contract. -/
def script (field : String) : Except ForgeError Script := do
  let script ← fields.nested field
  let code ← script.micheline "code"
  let storage ← script.micheline "storage"
  pure ⟨code, storage⟩

/-- A vote. -/
def vote (field : String) : Except ForgeError Vote := do
  let name ← fields.text field
  match Vote.ofName? name with
  | some vote => pure vote
  | none => throw (fields.invalid field (.notVote name))

/-- A list of protocol hashes. -/
def protocols (field : String) : Except ForgeError (List (FixedBytes 32)) := do
  let items ← fields.items field
  items.mapM fun item =>
    match item with
    | .string text => fields.hashOf field .protocolHash text
    | _ => throw (fields.invalid field .notStrings)

/-- A signed endorsement. -/
def inlinedEndorsement (field : String) : Except ForgeError InlinedEndorsement := do
  let inlined ← fields.nested field
  let operation ← inlined.nested "operations"
  let kind ← operation.text "kind"
  if kind ≠ Content.Kind.endorsement.name then
    throw (fields.invalid field (.notEndorsement kind))
  let branch ← inlined.hash .blockHash "branch"
  let level ← operation.int32 "level"
  let signature ← inlined.signature "signature"
  pure ⟨branch, level, signature⟩

/-- The components of a fitness. -/
def fitness (field : String) : Except ForgeError (List Bytes) := do
  let items ← fields.items field
  items.mapM fun item =>
    match item with
    | .string text => fields.checked field (fun _ => .notHexStrings) (Hex.decode text)
    | _ => throw (fields.invalid field .notHexStrings)

/-- A timestamp. -/
def timestamp (field : String) : Except ForgeError Timestamp := do
  let text ← fields.text field
  fields.checked field .timestamp (Timestamp.ofText text)

/-- An optional hash. -/
def optionalHash (version : Version) (field : String) :
    Except ForgeError (Option (FixedBytes 32)) :=
  match fields.optional field with
  | none => pure none
  | some _ => some <$> fields.hash version field

/-- A signed block header. The fields with a form of their own are read before the others. -/
def blockHeader (field : String) : Except ForgeError BlockHeader := do
  let header ← fields.nested field
  let timestamp ← header.timestamp "timestamp"
  let fitness ← header.fitness "fitness"
  let seedNonceHash ← header.optionalHash .nonceHash "seed_nonce_hash"
  let level ← header.int32 "level"
  let proto ← header.below (Nat.pow 2 8) "proto"
  let predecessor ← header.hash .blockHash "predecessor"
  let validationPass ← header.below (Nat.pow 2 8) "validation_pass"
  let operationsHash ← header.hash .operationListListHash "operations_hash"
  let context ← header.hash .contextHash "context"
  let priority ← header.below (Nat.pow 2 16) "priority"
  let proofOfWorkNonce ← header.hex 8 "proof_of_work_nonce"
  let signature ← header.signature "signature"
  pure ⟨level, UInt8.ofNat proto, predecessor, timestamp, UInt8.ofNat validationPass,
    operationsHash, fitness, context, UInt16.ofNat priority, proofOfWorkNonce, seedNonceHash,
    signature⟩

/-- The content that the fields of a kind make. -/
def content : Except ForgeError Content :=
  match fields.kind with
  | .endorsement => do
    let level ← fields.int32 "level"
    pure (.endorsement level)
  | .seedNonceRevelation => do
    let level ← fields.int32 "level"
    let nonce ← fields.hex 32 "nonce"
    pure (.seedNonceRevelation level nonce)
  | .doubleEndorsementEvidence => do
    let op1 ← fields.inlinedEndorsement "op1"
    let op2 ← fields.inlinedEndorsement "op2"
    pure (.doubleEndorsementEvidence op1 op2)
  | .doubleBakingEvidence => do
    let bh1 ← fields.blockHeader "bh1"
    let bh2 ← fields.blockHeader "bh2"
    pure (.doubleBakingEvidence bh1 bh2)
  | .activateAccount => do
    let pkh ← fields.address "pkh"
    let secret ← fields.hex 20 "secret"
    pure (.activateAccount pkh secret)
  | .proposals => do
    let protocols ← fields.protocols "proposals"
    let source ← fields.address "source"
    let period ← fields.int32 "period"
    pure (.proposals source period protocols)
  | .ballot => do
    let vote ← fields.vote "ballot"
    let source ← fields.address "source"
    let period ← fields.int32 "period"
    let protocol ← fields.hash .protocolHash "proposal"
    pure (.ballot source period protocol vote)
  | .reveal => do
    let publicKey ← fields.publicKey "public_key"
    let manager ← fields.manager
    pure (.reveal manager publicKey)
  | .transaction => do
    let manager ← fields.manager
    let amount ← fields.uint64 "amount"
    let destination ← fields.address "destination"
    let parameters ← fields.parameters "parameters"
    pure (.transaction manager amount destination parameters)
  | .origination => do
    let manager ← fields.manager
    let balance ← fields.uint64 "balance"
    let delegate ← fields.optionalAddress "delegate"
    let script ← fields.script "script"
    pure (.origination manager balance delegate script)
  | .delegation => do
    let manager ← fields.manager
    let delegate ← fields.optionalAddress "delegate"
    pure (.delegation manager delegate)

end Fields

namespace Content

/-- The content of a JSON value. -/
def ofJson (value : Json) : Except ForgeError Content :=
  match value with
  | .members entries =>
    match (Json.lookup "kind" entries).bind Json.asString? with
    | none => .error (.unknownKind none)
    | some name =>
      match Kind.ofName? name with
      | none => .error (.unknownKind (some name))
      | some kind => Fields.content ⟨kind, entries⟩
  | _ => .error (.contentNotObject value)

/-- The contents of a JSON value: an array of contents, or one of them. -/
def allOfJson (value : Json) : Except ForgeError (List Content) :=
  match value with
  | .array items => items.mapM ofJson
  | .members _ => do
    let content ← ofJson value
    pure [content]
  | _ => .error (.contentsNotArray value)

/-- The contents of a JSON text. -/
def parseAll (text : String) : Except ForgeError (List Content) :=
  match Json.parse? text with
  | none => .error (.notJson text)
  | some value => allOfJson value

end Content

end TezosWallet
