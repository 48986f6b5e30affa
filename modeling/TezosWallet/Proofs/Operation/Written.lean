import TezosWallet.Proofs.Hex
import TezosWallet.Operation.Json

/-!
# Contents as they are written in JSON

A content has many JSON values: an integer is a number or a numeral, the bytes of a signature have
four texts, hexadecimal letters stand in either case, what is absent is left out or null, and the
entrypoint `default` need not be named. Members that belong to no field may be there too.

## Main definitions

* `Json.Has`, `Json.HasOptional` — a member of an object, described by its value.
* `Json.WritesInt`, `Json.WritesHex`, `Json.WritesSignature`, … — the values of a datum.
* `Content.WrittenAs` — the JSON values of a content.

## Main results

* `Content.exists_writtenAs` — every content has one, if the times of its block headers have a text.
-/

namespace TezosWallet

namespace Json

/-! ### Values of data -/

/-- A text is itself. -/
def WritesText (text : String) (value : Json) : Prop := value = .string text

/-- An integer is a number, or a string of its decimal digits. -/
inductive WritesInt (n : Int) : Json → Prop
  | number : WritesInt n (.number (.integer n))
  | numeral : WritesInt n (.string (toString n))

/-- A byte string is a string of hexadecimal digits. -/
def WritesHex (bytes : Bytes) (value : Json) : Prop :=
  ∃ text, value = .string text ∧ Hex.Writes text bytes

/-- A hash is its identifier. -/
def WritesHash (version : Version) (hash : FixedBytes 32) (value : Json) : Prop :=
  WritesText (Base58Check.encode version.bytes hash.toBytes) value

/-- The bytes of a signature are their generic identifier, or that of any curve. -/
def WritesSignature (bytes : FixedBytes 64) (value : Json) : Prop :=
  WritesText (Signature.genericText bytes) value ∨
    ∃ curve, WritesText (Signature.toText ⟨curve, bytes⟩) value

/-- A moment is any text that is read as this moment. -/
def WritesTimestamp (moment : Timestamp) (value : Json) : Prop :=
  ∃ text, value = .string text ∧ Timestamp.ofText text = .ok moment

/-- A list is an array. -/
def WritesList {α : Type} (writes : α → Json → Prop) (list : List α) (value : Json) : Prop :=
  ∃ items, value = .array items ∧ List.Forall₂ writes list items

/-! ### Members of an object -/

/-- The member of a key is there, and is as described. -/
def Has (entries : List (String × Json)) (key : String) (described : Json → Prop) : Prop :=
  ∃ value, lookup key entries = some value ∧ described value

/-- The member of a key is not there, or is null. -/
def Lacks (entries : List (String × Json)) (key : String) : Prop :=
  lookup key entries = none ∨ lookup key entries = some .null

/-- The member of a key is there if there is something to write. -/
def HasOptional {α : Type} (entries : List (String × Json)) (key : String)
    (writes : α → Json → Prop) : Option α → Prop
  | some a => Has entries key (writes a)
  | none => Lacks entries key

end Json

open Json

section

variable (entries : List (String × Json))

/-- The members of what an account pays for. -/
structure ManagerFields.WrittenIn (manager : ManagerFields) : Prop where
  source : Has entries "source" (WritesText manager.source.toText)
  fee : Has entries "fee" (WritesInt manager.fee.toNat)
  counter : Has entries "counter" (WritesInt manager.counter.toNat)
  gasLimit : Has entries "gas_limit" (WritesInt manager.gasLimit.toNat)
  storageLimit : Has entries "storage_limit" (WritesInt manager.storageLimit.toNat)

/-- A call is an object. Its entrypoint may be left out if it is `default`. -/
def Parameters.WrittenAs (call : Parameters) (value : Json) : Prop :=
  ∃ entries, value = .members entries ∧
    (Has entries "entrypoint" (WritesText call.entrypoint) ∨
      call.entrypoint = "default" ∧ Lacks entries "entrypoint") ∧
    Has entries "value" (· = call.value.toJson)

/-- A script is an object. -/
def Script.WrittenAs (script : Script) (value : Json) : Prop :=
  ∃ entries, value = .members entries ∧ Has entries "code" (· = script.code.toJson) ∧
    Has entries "storage" (· = script.storage.toJson)

/-- The name of a vote. -/
def Vote.name : Vote → String
  | yay => "yay"
  | nay => "nay"
  | pass => "pass"

/-- A signed endorsement is an object around the endorsement. -/
def InlinedEndorsement.WrittenAs (inlined : InlinedEndorsement) (value : Json) : Prop :=
  ∃ entries operation, value = .members entries ∧
    Has entries "branch" (WritesHash .blockHash inlined.branch) ∧
    Has entries "operations" (· = .members operation) ∧
    Has operation "kind" (WritesText Content.Kind.endorsement.name) ∧
    Has operation "level" (WritesInt inlined.level.toInt) ∧
    Has entries "signature" (WritesSignature inlined.signature)

/-- The members of a signed block header. -/
structure BlockHeader.WrittenIn (header : BlockHeader) : Prop where
  level : Has entries "level" (WritesInt header.level.toInt)
  proto : Has entries "proto" (WritesInt header.proto.toNat)
  predecessor : Has entries "predecessor" (WritesHash .blockHash header.predecessor)
  timestamp : Has entries "timestamp" (WritesTimestamp header.timestamp)
  validationPass : Has entries "validation_pass" (WritesInt header.validationPass.toNat)
  operationsHash : Has entries "operations_hash"
    (WritesHash .operationListListHash header.operationsHash)
  fitness : Has entries "fitness" (WritesList WritesHex header.fitness)
  context : Has entries "context" (WritesHash .contextHash header.context)
  priority : Has entries "priority" (WritesInt header.priority.toNat)
  proofOfWorkNonce : Has entries "proof_of_work_nonce" (WritesHex header.proofOfWorkNonce.toBytes)
  seedNonceHash : HasOptional entries "seed_nonce_hash" (WritesHash .nonceHash)
    header.seedNonceHash
  signature : Has entries "signature" (WritesSignature header.signature)

/-- A signed block header is an object. -/
def BlockHeader.WrittenAs (header : BlockHeader) (value : Json) : Prop :=
  ∃ entries, value = .members entries ∧ header.WrittenIn entries

namespace Content

/-- The members of a content besides its kind. -/
def WrittenIn : Content → Prop
  | endorsement level => Has entries "level" (WritesInt level.toInt)
  | seedNonceRevelation level nonce =>
    Has entries "level" (WritesInt level.toInt) ∧ Has entries "nonce" (WritesHex nonce.toBytes)
  | doubleEndorsementEvidence op1 op2 =>
    Has entries "op1" op1.WrittenAs ∧ Has entries "op2" op2.WrittenAs
  | doubleBakingEvidence bh1 bh2 =>
    Has entries "bh1" bh1.WrittenAs ∧ Has entries "bh2" bh2.WrittenAs
  | activateAccount pkh secret =>
    Has entries "pkh" (WritesText pkh.toText) ∧ Has entries "secret" (WritesHex secret.toBytes)
  | proposals source period protocols =>
    Has entries "source" (WritesText source.toText) ∧
      Has entries "period" (WritesInt period.toInt) ∧
      Has entries "proposals" (WritesList (WritesHash .protocolHash) protocols)
  | ballot source period protocol vote =>
    Has entries "source" (WritesText source.toText) ∧
      Has entries "period" (WritesInt period.toInt) ∧
      Has entries "proposal" (WritesHash .protocolHash protocol) ∧
      Has entries "ballot" (WritesText vote.name)
  | reveal manager publicKey =>
    manager.WrittenIn entries ∧ Has entries "public_key" (WritesText publicKey.toText)
  | transaction manager amount destination parameters =>
    manager.WrittenIn entries ∧ Has entries "amount" (WritesInt amount.toNat) ∧
      Has entries "destination" (WritesText destination.toText) ∧
      HasOptional entries "parameters" Parameters.WrittenAs parameters
  | origination manager balance delegate script =>
    manager.WrittenIn entries ∧ Has entries "balance" (WritesInt balance.toNat) ∧
      HasOptional entries "delegate" (fun address => WritesText address.toText) delegate ∧
      Has entries "script" script.WrittenAs
  | delegation manager delegate =>
    manager.WrittenIn entries ∧
      HasOptional entries "delegate" (fun address => WritesText address.toText) delegate

/-- A JSON value of a content: an object that names its kind and has its members. -/
def WrittenAs (content : Content) (value : Json) : Prop :=
  ∃ entries, value = .members entries ∧ Has entries "kind" (WritesText content.kind.name) ∧
    content.WrittenIn entries

end Content

end

/-! ### Every content can be written -/

theorem Json.exists_writesHex (bytes : Bytes) : ∃ value, WritesHex bytes value :=
  ⟨_, _, rfl, Hex.writes_encode bytes⟩

theorem Json.exists_writesList {α : Type} {writes : α → Json → Prop}
    (h : ∀ a, ∃ value, writes a value) (list : List α) : ∃ value, WritesList writes list value := by
  choose value hvalue using h
  refine ⟨_, list.map value, rfl, ?_⟩
  rw [List.forall₂_map_right_iff, List.forall₂_same]
  exact fun a _ => hvalue a

/-- What may be absent can be written as a member, which is null if it is absent. -/
theorem Json.exists_hasOptional {α : Type} {writes : α → Json → Prop}
    (h : ∀ a, ∃ value, writes a value) (key : String) (a : Option α) :
    ∃ value, ∀ entries, lookup key entries = some value → HasOptional entries key writes a := by
  cases a with
  | none => exact ⟨.null, fun _ hlookup => .inr hlookup⟩
  | some a =>
    obtain ⟨value, hvalue⟩ := h a
    exact ⟨value, fun _ hlookup => ⟨value, hlookup, hvalue⟩⟩

theorem Json.exists_hasOptional_address (key : String) (address : Option Address) :
    ∃ value, ∀ entries, lookup key entries = some value →
      HasOptional entries key (fun address => WritesText (Address.toText address)) address :=
  @exists_hasOptional _ (fun address => WritesText (Address.toText address))
    (fun _ => ⟨_, rfl⟩) key address

theorem Parameters.exists_writtenAs (call : Parameters) : ∃ value, call.WrittenAs value :=
  ⟨.members [("entrypoint", _), ("value", _)], _, rfl, .inl ⟨_, rfl, rfl⟩, _, rfl, rfl⟩

theorem Script.exists_writtenAs (script : Script) : ∃ value, script.WrittenAs value :=
  ⟨.members [("code", _), ("storage", _)], _, rfl, ⟨_, rfl, rfl⟩, _, rfl, rfl⟩

theorem InlinedEndorsement.exists_writtenAs (inlined : InlinedEndorsement) :
    ∃ value, inlined.WrittenAs value :=
  ⟨.members [("branch", _), ("operations", .members [("kind", _), ("level", _)]),
    ("signature", _)], _, _, rfl, ⟨_, rfl, rfl⟩, ⟨_, rfl, rfl⟩, ⟨_, rfl, rfl⟩, ⟨_, rfl, .numeral⟩,
    _, rfl, .inl rfl⟩

/-- Some text is read as the time of a header. -/
def BlockHeader.Datable (header : BlockHeader) : Prop :=
  ∃ text, Timestamp.ofText text = .ok header.timestamp

theorem BlockHeader.exists_writtenAs {header : BlockHeader} (h : header.Datable) :
    ∃ value, header.WrittenAs value := by
  obtain ⟨text, htext⟩ := h
  obtain ⟨fitness, hfitness⟩ := exists_writesList exists_writesHex header.fitness
  obtain ⟨hash, hhash⟩ := @exists_hasOptional _ (WritesHash .nonceHash) (fun _ => ⟨_, rfl⟩)
    "seed_nonce_hash" header.seedNonceHash
  exact ⟨.members [("level", _), ("proto", _), ("predecessor", _), ("timestamp", .string text),
    ("validation_pass", _), ("operations_hash", _), ("fitness", fitness), ("context", _),
    ("priority", _), ("proof_of_work_nonce", _), ("seed_nonce_hash", hash), ("signature", _)], _,
    rfl, ⟨_, rfl, .numeral⟩, ⟨_, rfl, .numeral⟩, ⟨_, rfl, rfl⟩, ⟨_, rfl, _, rfl, htext⟩,
    ⟨_, rfl, .numeral⟩, ⟨_, rfl, rfl⟩, ⟨_, rfl, hfitness⟩, ⟨_, rfl, rfl⟩, ⟨_, rfl, .numeral⟩,
    ⟨_, rfl, _, rfl, Hex.writes_encode _⟩, hhash _ rfl, ⟨_, rfl, .inl rfl⟩⟩

/-- Members of what an account pays for. -/
def ManagerFields.members (manager : ManagerFields) : List (String × Json) := [
  ("source", .string manager.source.toText),
  ("fee", .string (toString (manager.fee.toNat : Int))),
  ("counter", .string (toString (manager.counter.toNat : Int))),
  ("gas_limit", .string (toString (manager.gasLimit.toNat : Int))),
  ("storage_limit", .string (toString (manager.storageLimit.toNat : Int)))]

theorem ManagerFields.writtenIn_members (manager : ManagerFields) (kind : Json)
    (others : List (String × Json)) :
    manager.WrittenIn (("kind", kind) :: (manager.members ++ others)) :=
  ⟨⟨_, rfl, rfl⟩, ⟨_, rfl, .numeral⟩, ⟨_, rfl, .numeral⟩, ⟨_, rfl, .numeral⟩, ⟨_, rfl, .numeral⟩⟩

/-- The block headers of a content have times that some text is read as. -/
def Content.Datable : Content → Prop
  | .doubleBakingEvidence bh1 bh2 => bh1.Datable ∧ bh2.Datable
  | _ => True

/-- Every content can be written in JSON, if the times in it can. -/
theorem Content.exists_writtenAs {content : Content} (h : content.Datable) :
    ∃ value, content.WrittenAs value := by
  cases content with
  | endorsement level =>
    exact ⟨.members [("kind", _), ("level", _)], _, rfl, ⟨_, rfl, rfl⟩, _, rfl, .numeral⟩
  | seedNonceRevelation level nonce =>
    exact ⟨.members [("kind", _), ("level", _), ("nonce", _)], _, rfl, ⟨_, rfl, rfl⟩,
      ⟨_, rfl, .numeral⟩, _, rfl, _, rfl, Hex.writes_encode _⟩
  | doubleEndorsementEvidence op1 op2 =>
    obtain ⟨value₁, h₁⟩ := op1.exists_writtenAs
    obtain ⟨value₂, h₂⟩ := op2.exists_writtenAs
    exact ⟨.members [("kind", _), ("op1", value₁), ("op2", value₂)], _, rfl, ⟨_, rfl, rfl⟩,
      ⟨_, rfl, h₁⟩, _, rfl, h₂⟩
  | doubleBakingEvidence bh1 bh2 =>
    obtain ⟨value₁, h₁⟩ := BlockHeader.exists_writtenAs h.1
    obtain ⟨value₂, h₂⟩ := BlockHeader.exists_writtenAs h.2
    exact ⟨.members [("kind", _), ("bh1", value₁), ("bh2", value₂)], _, rfl, ⟨_, rfl, rfl⟩,
      ⟨_, rfl, h₁⟩, _, rfl, h₂⟩
  | activateAccount pkh secret =>
    exact ⟨.members [("kind", _), ("pkh", _), ("secret", _)], _, rfl, ⟨_, rfl, rfl⟩,
      ⟨_, rfl, rfl⟩, _, rfl, _, rfl, Hex.writes_encode _⟩
  | proposals source period protocols =>
    obtain ⟨hashes, hhashes⟩ :=
      @exists_writesList _ (WritesHash .protocolHash) (fun _ => ⟨_, rfl⟩) protocols
    exact ⟨.members [("kind", _), ("source", _), ("period", _), ("proposals", hashes)], _, rfl,
      ⟨_, rfl, rfl⟩, ⟨_, rfl, rfl⟩, ⟨_, rfl, .numeral⟩, _, rfl, hhashes⟩
  | ballot source period protocol vote =>
    exact ⟨.members [("kind", _), ("source", _), ("period", _), ("proposal", _), ("ballot", _)],
      _, rfl, ⟨_, rfl, rfl⟩, ⟨_, rfl, rfl⟩, ⟨_, rfl, .numeral⟩, ⟨_, rfl, rfl⟩, _, rfl, rfl⟩
  | reveal manager publicKey =>
    exact ⟨.members (_ :: (manager.members ++ [("public_key", _)])), _, rfl, ⟨_, rfl, rfl⟩,
      manager.writtenIn_members _ _, _, rfl, rfl⟩
  | transaction manager amount destination parameters =>
    obtain ⟨call, hcall⟩ :=
      exists_hasOptional Parameters.exists_writtenAs "parameters" parameters
    exact ⟨.members (_ :: (manager.members ++
      [("amount", _), ("destination", _), ("parameters", call)])), _, rfl, ⟨_, rfl, rfl⟩,
      manager.writtenIn_members _ _, ⟨_, rfl, .numeral⟩, ⟨_, rfl, rfl⟩, hcall _ rfl⟩
  | origination manager balance delegate script =>
    obtain ⟨baker, hbaker⟩ := exists_hasOptional_address "delegate" delegate
    obtain ⟨code, hcode⟩ := script.exists_writtenAs
    exact ⟨.members (_ :: (manager.members ++
      [("balance", _), ("delegate", baker), ("script", code)])), _, rfl, ⟨_, rfl, rfl⟩,
      manager.writtenIn_members _ _, ⟨_, rfl, .numeral⟩, hbaker _ rfl, _, rfl, hcode⟩
  | delegation manager delegate =>
    obtain ⟨baker, hbaker⟩ := exists_hasOptional_address "delegate" delegate
    exact ⟨.members (_ :: (manager.members ++ [("delegate", baker)])), _, rfl, ⟨_, rfl, rfl⟩,
      manager.writtenIn_members _ _, hbaker _ rfl⟩

end TezosWallet
