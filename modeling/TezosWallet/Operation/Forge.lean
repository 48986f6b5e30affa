import TezosWallet.Key.Basic
import TezosWallet.Operation.Json

/-!
# Forging operations

A forged operation is the thirty-two bytes of its branch and then each content in order. Contents
that an account pays for begin alike:

```text
tag, source (21), fee, counter, gas limit, storage limit
```

and the fields of the kind follow. Numbers are variable-length naturals, except levels, periods and
timestamps. An optional field is `ff` and the field, or `00`.

## Main definitions

* `Content.write` — writes a content; `Content.append` does so and leaves no trace on failure.
* `ForgedOperation.ofContents` — the operation of a branch and contents.
* `ForgedOperation.sign` — the operation signed by a key.
* `SignedOperation` — forged bytes with a signature; its bytes and hash.
-/

namespace TezosWallet

/-- The byte in front of an optional field that is there. -/
def presentFlag : UInt8 := 0xff

/-- The byte in place of an optional field that is not there. -/
def absentFlag : UInt8 := 0x00

/-- Bytes that may be absent. -/
def flagged (field : Option Bytes) : Bytes :=
  match field with
  | some bytes => presentFlag :: bytes
  | none => [absentFlag]

/-- The length in bytes of the longest entrypoint name. -/
def longestEntrypoint : Nat := 31

/-- The byte of an entrypoint that has one. -/
def entrypointTag? (name : String) : Option UInt8 :=
  if name = "default" then some 0
  else if name = "root" then some 1
  else if name = "do" then some 2
  else if name = "set_delegate" then some 3
  else if name = "remove_delegate" then some 4
  else none

/-- The forged form of a thirty-two-bit integer. -/
def forgeInt32 (n : Int32) : Bytes := Bytes.ofIntBE 4 n.toInt

/-- The forged form of a number that an account pays or is limited by. -/
def forgeAmount (n : UInt64) : Bytes := Zarith.encodeNatural n.toNat

/-- The forged form of a signed endorsement, without its length. -/
def InlinedEndorsement.forge (inlined : InlinedEndorsement) : Bytes :=
  inlined.branch.toBytes ++ [Content.Kind.endorsement.tag] ++ forgeInt32 inlined.level ++
    inlined.signature.toBytes

/-- The forged form of a signed block header, without its length. -/
def BlockHeader.forge (header : BlockHeader) : Bytes :=
  forgeInt32 header.level ++ [header.proto] ++ header.predecessor.toBytes ++
    Bytes.ofIntBE 8 header.timestamp.seconds.toInt ++ [header.validationPass] ++
    header.operationsHash.toBytes ++ frame (header.fitness.flatMap frame) ++
    header.context.toBytes ++ Bytes.ofNatBE 2 header.priority.toNat ++
    header.proofOfWorkNonce.toBytes ++ flagged (header.seedNonceHash.map FixedBytes.toBytes) ++
    header.signature.toBytes

namespace Content

/-- A writer of a content of some kind. -/
abbrev Forging := Writer ForgeError

/-- Fails because of a field. -/
def refuse (kind : Kind) (field : String) (fault : FieldFault) : Forging :=
  .fail (.invalidField kind field fault)

/-- Writes the key hash of an account that must not be a contract. -/
def writeKeyHash (kind : Kind) (field : String) (address : Address) : Forging :=
  match address.forgeKeyHash with
  | .ok bytes => .put bytes
  | .error fault => refuse kind field (.address fault)

/-- Writes the fields of a content that an account pays for. -/
def writeManager (kind : Kind) (manager : ManagerFields) : Forging :=
  writeKeyHash kind "source" manager.source >>
    .put (forgeAmount manager.fee) >>
    .put (forgeAmount manager.counter) >>
    .put (forgeAmount manager.gasLimit) >>
    .put (forgeAmount manager.storageLimit)

/-- Writes an optional delegate. -/
def writeDelegate (kind : Kind) (delegate : Option Address) : Forging :=
  match delegate with
  | some delegate => .put [presentFlag] >> writeKeyHash kind "delegate" delegate
  | none => .put [absentFlag]

/-- Writes a tree behind its length. -/
def writeTree (node : Micheline) : Forging := .framed (node.write.mapFault .micheline)

/-- Writes the name of an entrypoint: its byte, or the name behind its one-byte length. -/
def writeEntrypoint (kind : Kind) (name : String) : Forging :=
  match entrypointTag? name with
  | some tag => .put [tag]
  | none =>
    let bytes := Bytes.utf8 name
    if 0 < bytes.length ∧ bytes.length ≤ longestEntrypoint then
      .put (0xff :: UInt8.ofNat bytes.length :: bytes)
    else refuse kind "entrypoint" (.entrypointLength longestEntrypoint)

/-- Writes the optional call of a contract. -/
def writeParameters (kind : Kind) (parameters : Option Parameters) : Forging :=
  match parameters with
  | some call =>
    .put [presentFlag] >> writeEntrypoint kind call.entrypoint >> writeTree call.value
  | none => .put [absentFlag]

/-- Writes the hash of an account that must be one of an Ed25519 key. -/
def writeTz1Hash (kind : Kind) (field : String) (address : Address) : Forging :=
  match address with
  | .implicit .ed25519 hash => .put hash.toBytes
  | _ => refuse kind field .notTz1

/-- Writes the fields of a content. -/
def writeFields (content : Content) : Forging :=
  let kind := content.kind
  match content with
  | endorsement level => .put (forgeInt32 level)
  | seedNonceRevelation level nonce => .put (forgeInt32 level) >> .put nonce.toBytes
  | doubleEndorsementEvidence op1 op2 =>
    .framed (.put op1.forge) >> .framed (.put op2.forge)
  | doubleBakingEvidence bh1 bh2 => .framed (.put bh1.forge) >> .framed (.put bh2.forge)
  | activateAccount pkh secret => writeTz1Hash kind "pkh" pkh >> .put secret.toBytes
  | proposals source period protocols =>
    writeKeyHash kind "source" source >> .put (forgeInt32 period) >>
      .framed (.forEach (fun protocol => .put protocol.toBytes) protocols)
  | ballot source period protocol vote =>
    writeKeyHash kind "source" source >> .put (forgeInt32 period) >>
      .put protocol.toBytes >> .put [vote.byte]
  | reveal manager publicKey => writeManager kind manager >> .put publicKey.forge
  | transaction manager amount destination parameters =>
    writeManager kind manager >> .put (forgeAmount amount) >>
      .put destination.forgeContract >> writeParameters kind parameters
  | origination manager balance delegate script =>
    writeManager kind manager >> .put (forgeAmount balance) >> writeDelegate kind delegate >>
      writeTree script.code >> writeTree script.storage
  | delegation manager delegate => writeManager kind manager >> writeDelegate kind delegate

/-- Writes a content: the byte of its kind, then its fields. -/
def write (content : Content) : Forging := .put [content.kind.tag] >> content.writeFields

/-- Writes a content, or leaves the buffer as it was. -/
def append (content : Content) : Forging := content.write.atomic

/-- Writes contents one after the other. -/
def appendAll (contents : List Content) : Forging := .forEach append contents

/-- The forged form of a content. -/
def forge (content : Content) : Except ForgeError Bytes := content.append.run

/-- The forged form of contents without a branch. -/
def forgeAll (contents : List Content) : Except ForgeError Bytes := (appendAll contents).run

end Content

/-- A signed operation, as it is sent to the network. -/
structure SignedOperation where
  forged : Bytes
  signature : Signature

namespace SignedOperation

/-- The bytes that are sent: the forged ones, then the signature. -/
def toBytes (operation : SignedOperation) : Bytes :=
  operation.forged ++ operation.signature.bytes.toBytes

/-- The bytes that are sent, in hexadecimal. -/
def toHex (operation : SignedOperation) : String := Hex.encode operation.toBytes

/-- The operation hash. -/
def hash (operation : SignedOperation) : String :=
  Base58Check.encode Version.operationHash.bytes (Blake2b.digest256 operation.toBytes).toBytes

end SignedOperation

/-- A forged operation, ready to be signed. -/
structure ForgedOperation where
  bytes : Bytes

namespace ForgedOperation

/-- The operation of contents on a branch. -/
def ofContents (branch : String) (contents : List Content) : Except ForgeError ForgedOperation := do
  let hash ← (Base58Check.decodeFixed 32 branch Version.blockHash.bytes).mapError .branch
  let bytes ← (Writer.put hash.toBytes >> Content.appendAll contents).run
  pure ⟨bytes⟩

/-- The operation of contents in JSON on a branch. The contents are read before the branch. -/
def ofJson (branch contents : String) : Except ForgeError ForgedOperation := do
  let contents ← Content.parseAll contents
  ofContents branch contents

/-- The bytes in hexadecimal. -/
def toHex (operation : ForgedOperation) : String := Hex.encode operation.bytes

/-- The operation with a signature. -/
def withSignature (operation : ForgedOperation) (signature : Signature) : SignedOperation :=
  ⟨operation.bytes, signature⟩

/-- The operation signed by a key. The watermark is always added, since a branch may begin with
the same byte. -/
def sign (operation : ForgedOperation) (key : Key) : Except KeyError SignedOperation := do
  let signature ← key.signWith .operation operation.bytes
  pure (operation.withSignature signature)

end ForgedOperation

end TezosWallet
