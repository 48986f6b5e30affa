import TezosWallet.Proofs.Identifier
import TezosWallet.Proofs.Micheline.Json
import TezosWallet.Proofs.Operation.Number
import TezosWallet.Proofs.Operation.Written
import TezosWallet.Sample

/-!
# Contents are read as they are written

Every JSON value of a content is read as the content. Each reader of a field looks for one member
and inverts one way of writing, so the readers of the kinds follow from those of the fields.

## Main results

* `Fields.int32_eq`, `Fields.address_eq`, `Fields.signature_eq`, … — fields are read as written.
* `Content.ofJson_of_writtenAs` — contents are read as written.
* `Content.json_means_content` — so are lists of contents in JSON texts, and they are forged alike.
-/

namespace TezosWallet

open Json

/-! ### Numbers in writing -/

namespace Json

theorem WritesInt.tellsNatural {n : Nat} {value : Json} (h : WritesInt n value) :
    TellsNatural n value := by
  cases h with
  | number => exact .number
  | numeral => exact .numeral (Numeral.natural?_eq_some_iff.mp (Numeral.natural?_toString n))

theorem WritesInt.tellsInteger {z : Int} {value : Json} (h : WritesInt z value) :
    TellsInteger z value := by
  cases h with
  | number => exact .number
  | numeral => exact .numeral (Numeral.integer?_eq_some_iff.mp (Numeral.integer?_toString z))

end Json

namespace Fields

variable {kind : Content.Kind} {entries : List (String × Json)} {key : String}

theorem optional_eq_some {value : Json} (h : lookup key entries = some value)
    (hnull : value ≠ .null) : Fields.optional ⟨kind, entries⟩ key = some value := by
  rw [optional, h]
  cases value with
  | null => exact absurd rfl hnull
  | _ => rfl

theorem optional_eq_none (h : Lacks entries key) : Fields.optional ⟨kind, entries⟩ key = none := by
  rw [optional]
  rcases h with h | h <;> rw [h]

/-- A member that is described by something that null is not can be read. -/
theorem exists_get_eq {p : Json → Prop} (h : Has entries key p) (hnull : ¬ p .null) :
    ∃ value, Fields.get ⟨kind, entries⟩ key = .ok value ∧
      Fields.optional ⟨kind, entries⟩ key = some value ∧ p value := by
  obtain ⟨value, hlookup, hp⟩ := h
  have hoptional : Fields.optional ⟨kind, entries⟩ key = some value :=
    optional_eq_some hlookup fun h => hnull (h ▸ hp)
  exact ⟨value, by rw [get, hoptional]; rfl, hoptional, hp⟩

theorem text_eq {text : String} (h : Has entries key (WritesText text)) :
    Fields.text ⟨kind, entries⟩ key = .ok text := by
  obtain ⟨_, hget, -, rfl⟩ := exists_get_eq h nofun
  rw [Fields.text, hget]
  rfl

/-! ### Numbers -/

theorem natural_eq {n : Nat} (hn : n < 2 ^ 64) (h : Has entries key (WritesInt n)) :
    Fields.natural ⟨kind, entries⟩ key = .ok n := by
  obtain ⟨value, hlookup, hvalue⟩ := h
  exact natural_eq_ok_iff.mpr ⟨value, hlookup, hvalue.tellsNatural, hn⟩

theorem uint64_eq {n : UInt64} (h : Has entries key (WritesInt n.toNat)) :
    Fields.uint64 ⟨kind, entries⟩ key = .ok n :=
  uint64_eq_ok_iff.mpr (natural_eq n.toNat_lt h)

theorem below_eq {bound n : Nat} (hbound : bound ≤ 2 ^ 64) (hn : n < bound)
    (h : Has entries key (WritesInt n)) : Fields.below ⟨kind, entries⟩ bound key = .ok n :=
  below_eq_ok_iff.mpr ⟨natural_eq (by omega) h, hn⟩

theorem int32_eq {n : Int32} (h : Has entries key (WritesInt n.toInt)) :
    Fields.int32 ⟨kind, entries⟩ key = .ok n := by
  obtain ⟨value, hlookup, hvalue⟩ := h
  obtain ⟨w, hw, htoInt⟩ : ∃ w, Fields.int32 ⟨kind, entries⟩ key = .ok w ∧ w.toInt = n.toInt :=
    int32_eq_ok_iff.mpr ⟨value, hlookup, hvalue.tellsInteger, n.le_toInt, n.toInt_lt⟩
  rw [hw, Int32.toInt_inj.mp htoInt]

/-! ### Identifiers -/

theorem address_eq {a : Address} (h : Has entries key (WritesText a.toText)) :
    Fields.address ⟨kind, entries⟩ key = .ok a := by
  rw [address, text_eq h, Outcome.ok_bind, a.ofText_toText]
  rfl

theorem optionalAddress_eq {a : Option Address}
    (h : HasOptional entries key (fun address => WritesText address.toText) a) :
    Fields.optionalAddress ⟨kind, entries⟩ key = .ok a := by
  cases a with
  | none => rw [optionalAddress, optional_eq_none h]; rfl
  | some a =>
    obtain ⟨value, -, hoptional, -⟩ := exists_get_eq h nofun
    rw [optionalAddress, hoptional]
    simp only [address_eq h, Outcome.map_ok]

theorem publicKey_eq {k : PublicKey} (h : Has entries key (WritesText k.toText)) :
    Fields.publicKey ⟨kind, entries⟩ key = .ok k := by
  rw [publicKey, text_eq h, Outcome.ok_bind, k.ofText_toText]
  rfl

theorem hashOf_eq {version : Version} (hash : FixedBytes 32) :
    Fields.hashOf ⟨kind, entries⟩ key version
      (Base58Check.encode version.bytes hash.toBytes) = .ok hash := by
  rw [hashOf, Base58Check.decodeFixed_eq_ok_iff.mpr rfl]
  rfl

theorem hash_eq {version : Version} {hash : FixedBytes 32}
    (h : Has entries key (WritesHash version hash)) :
    Fields.hash ⟨kind, entries⟩ version key = .ok hash := by
  rw [Fields.hash, text_eq h, Outcome.ok_bind, hashOf_eq]

theorem optionalHash_eq {version : Version} {hash : Option (FixedBytes 32)}
    (h : HasOptional entries key (WritesHash version) hash) :
    Fields.optionalHash ⟨kind, entries⟩ version key = .ok hash := by
  cases hash with
  | none => rw [optionalHash, optional_eq_none h]; rfl
  | some hash =>
    obtain ⟨value, -, hoptional, -⟩ := exists_get_eq h nofun
    rw [optionalHash, hoptional]
    simp only [hash_eq h, Outcome.map_ok]

theorem signature_eq {bytes : FixedBytes 64}
    (h : Has entries key (WritesSignature bytes)) :
    Fields.signature ⟨kind, entries⟩ key = .ok bytes := by
  obtain ⟨value, hlookup, hvalue⟩ := h
  obtain ⟨text, rfl, htext⟩ : ∃ text, value = .string text ∧
      Signature.bytesOfText text = .ok bytes := by
    rcases hvalue with hgeneric | ⟨curve, hcurve⟩
    · exact ⟨_, hgeneric, Signature.bytesOfText_eq_ok_iff.mpr (.inr rfl)⟩
    · exact ⟨_, hcurve, Signature.bytesOfText_eq_ok_iff.mpr (.inl ⟨curve, rfl⟩)⟩
  rw [signature, text_eq ⟨_, hlookup, rfl⟩, Outcome.ok_bind, htext]
  rfl

/-! ### Bytes, moments and lists -/

theorem hex_eq {size : Nat} {bytes : FixedBytes size}
    (h : Has entries key (WritesHex bytes.toBytes)) :
    Fields.hex ⟨kind, entries⟩ size key = .ok bytes := by
  obtain ⟨_, hlookup, text, rfl, hwrites⟩ := h
  rw [Fields.hex, text_eq ⟨_, hlookup, rfl⟩, Outcome.ok_bind, Hex.decode_of_writes hwrites]
  simp only [checked, Outcome.mapError_ok, Outcome.ok_bind, FixedBytes.ofBytes?_toBytes,
    Outcome.pure_eq_ok]

theorem timestamp_eq {moment : Timestamp}
    (h : Has entries key (WritesTimestamp moment)) :
    Fields.timestamp ⟨kind, entries⟩ key = .ok moment := by
  obtain ⟨_, hlookup, text, rfl, htext⟩ := h
  rw [timestamp, text_eq ⟨_, hlookup, rfl⟩, Outcome.ok_bind, htext]
  rfl

theorem items_eq {items : List Json} (h : lookup key entries = some (.array items)) :
    Fields.items ⟨kind, entries⟩ key = .ok items := by
  obtain ⟨_, hget, -, rfl⟩ := exists_get_eq (p := (· = .array items)) ⟨_, h, rfl⟩ nofun
  rw [Fields.items, hget]
  rfl

theorem fitness_eq {components : List Bytes}
    (h : Has entries key (WritesList WritesHex components)) :
    Fields.fitness ⟨kind, entries⟩ key = .ok components := by
  obtain ⟨_, hlookup, items, rfl, hitems⟩ := h
  rw [fitness, items_eq hlookup, Outcome.ok_bind, Outcome.mapM_eq_ok_iff]
  refine hitems.flip.imp fun item bytes hitem => ?_
  obtain ⟨text, rfl, hwrites⟩ := hitem
  simp only [Hex.decode_of_writes hwrites, checked, Outcome.mapError_ok]

theorem protocols_eq {hashes : List (FixedBytes 32)}
    (h : Has entries key (WritesList (WritesHash .protocolHash) hashes)) :
    Fields.protocols ⟨kind, entries⟩ key = .ok hashes := by
  obtain ⟨_, hlookup, items, rfl, hitems⟩ := h
  rw [protocols, items_eq hlookup, Outcome.ok_bind, Outcome.mapM_eq_ok_iff]
  refine hitems.flip.imp fun item hash hitem => ?_
  cases hitem
  exact hashOf_eq hash

theorem vote_eq {v : Vote} (h : Has entries key (WritesText v.name)) :
    Fields.vote ⟨kind, entries⟩ key = .ok v := by
  rw [vote, text_eq h]
  cases v <;> rfl

/-! ### Trees and objects -/

theorem nested_eq {inner : List (String × Json)}
    (h : lookup key entries = some (.members inner)) :
    Fields.nested ⟨kind, entries⟩ key = .ok ⟨kind, inner⟩ := by
  obtain ⟨_, hget, -, rfl⟩ := exists_get_eq (p := (· = .members inner)) ⟨_, h, rfl⟩ nofun
  rw [nested, hget]
  rfl

theorem toJson_ne_null (node : Micheline) : .null ≠ node.toJson := by
  cases node <;> rw [Micheline.toJson] <;> nofun

theorem micheline_eq {node : Micheline} (h : Has entries key (· = node.toJson)) :
    Fields.micheline ⟨kind, entries⟩ key = .ok node := by
  obtain ⟨_, hget, -, rfl⟩ := exists_get_eq h (toJson_ne_null node)
  rw [micheline, hget, Outcome.ok_bind, Micheline.ofJson_toJson]
  rfl

theorem manager_eq {m : ManagerFields} (h : m.WrittenIn entries) :
    Fields.manager ⟨kind, entries⟩ = .ok m := by
  simp only [manager, address_eq h.source, uint64_eq h.fee, uint64_eq h.counter,
    uint64_eq h.gasLimit, uint64_eq h.storageLimit, Outcome.ok_bind, Outcome.pure_eq_ok]

theorem parameters_eq {call : Option Parameters}
    (h : HasOptional entries key Parameters.WrittenAs call) :
    Fields.parameters ⟨kind, entries⟩ key = .ok call := by
  cases call with
  | none => rw [parameters, optional_eq_none h]; rfl
  | some call =>
    obtain ⟨_, hlookup, inner, rfl, hentrypoint, hvalue⟩ := h
    rw [parameters, optional_eq_some hlookup nofun]
    rcases hentrypoint with hnamed | ⟨hdefault, hlacks⟩
    · obtain ⟨_, hentry, rfl⟩ := hnamed
      simp only [nested_eq hlookup, Outcome.ok_bind, optional_eq_some hentry nofun,
        text_eq ⟨_, hentry, rfl⟩, micheline_eq hvalue, Outcome.pure_eq_ok]
    · simp only [nested_eq hlookup, Outcome.ok_bind, optional_eq_none hlacks, micheline_eq hvalue,
        Outcome.pure_eq_ok, ← hdefault]

theorem script_eq {s : Script} (h : Has entries key s.WrittenAs) :
    Fields.script ⟨kind, entries⟩ key = .ok s := by
  obtain ⟨_, hlookup, inner, rfl, hcode, hstorage⟩ := h
  simp only [script, nested_eq hlookup, Outcome.ok_bind, micheline_eq hcode,
    micheline_eq hstorage, Outcome.pure_eq_ok]

theorem inlinedEndorsement_eq {inlined : InlinedEndorsement}
    (h : Has entries key inlined.WrittenAs) :
    Fields.inlinedEndorsement ⟨kind, entries⟩ key = .ok inlined := by
  obtain ⟨_, hlookup, inner, operation, rfl, hbranch, ⟨_, hoperation, rfl⟩, hkind, hlevel,
    hsignature⟩ := h
  simp only [inlinedEndorsement, nested_eq hlookup, nested_eq hoperation, text_eq hkind,
    hash_eq hbranch, int32_eq hlevel, signature_eq hsignature, Outcome.ok_bind,
    Outcome.pure_eq_ok, ne_eq, not_true_eq_false, if_false]

theorem blockHeader_eq {header : BlockHeader} (h : Has entries key header.WrittenAs) :
    Fields.blockHeader ⟨kind, entries⟩ key = .ok header := by
  obtain ⟨_, hlookup, inner, rfl, hinner⟩ := h
  simp only [blockHeader, nested_eq hlookup, timestamp_eq hinner.timestamp,
    fitness_eq hinner.fitness, optionalHash_eq hinner.seedNonceHash, int32_eq hinner.level,
    below_eq (by decide) header.proto.toNat_lt hinner.proto, hash_eq hinner.predecessor,
    below_eq (by decide) header.validationPass.toNat_lt hinner.validationPass,
    hash_eq hinner.operationsHash, hash_eq hinner.context,
    below_eq (by decide) header.priority.toNat_lt hinner.priority,
    hex_eq hinner.proofOfWorkNonce, signature_eq hinner.signature, Outcome.ok_bind,
    Outcome.pure_eq_ok, UInt8.ofNat_toNat, UInt16.ofNat_toNat]

/-- A content is read from its members. -/
theorem content_eq {c : Content} (h : c.WrittenIn entries) :
    Fields.content ⟨c.kind, entries⟩ = .ok c := by
  cases c with
  | endorsement level => simp only [content, Content.kind, int32_eq h, Outcome.ok_bind,
      Outcome.pure_eq_ok]
  | seedNonceRevelation level nonce =>
    obtain ⟨hlevel, hnonce⟩ := h
    simp only [content, Content.kind, int32_eq hlevel, hex_eq hnonce, Outcome.ok_bind,
      Outcome.pure_eq_ok]
  | doubleEndorsementEvidence op1 op2 =>
    obtain ⟨hop1, hop2⟩ := h
    simp only [content, Content.kind, inlinedEndorsement_eq hop1, inlinedEndorsement_eq hop2,
      Outcome.ok_bind, Outcome.pure_eq_ok]
  | doubleBakingEvidence bh1 bh2 =>
    obtain ⟨hbh1, hbh2⟩ := h
    simp only [content, Content.kind, blockHeader_eq hbh1, blockHeader_eq hbh2, Outcome.ok_bind,
      Outcome.pure_eq_ok]
  | activateAccount pkh secret =>
    obtain ⟨hpkh, hsecret⟩ := h
    simp only [content, Content.kind, address_eq hpkh, hex_eq hsecret, Outcome.ok_bind,
      Outcome.pure_eq_ok]
  | proposals source period protocols =>
    obtain ⟨hsource, hperiod, hprotocols⟩ := h
    simp only [content, Content.kind, protocols_eq hprotocols, address_eq hsource,
      int32_eq hperiod, Outcome.ok_bind, Outcome.pure_eq_ok]
  | ballot source period protocol vote =>
    obtain ⟨hsource, hperiod, hprotocol, hvote⟩ := h
    simp only [content, Content.kind, vote_eq hvote, address_eq hsource, int32_eq hperiod,
      hash_eq hprotocol, Outcome.ok_bind, Outcome.pure_eq_ok]
  | reveal manager publicKey =>
    obtain ⟨hmanager, hkey⟩ := h
    simp only [content, Content.kind, publicKey_eq hkey, manager_eq hmanager, Outcome.ok_bind,
      Outcome.pure_eq_ok]
  | transaction manager amount destination parameters =>
    obtain ⟨hmanager, hamount, hdestination, hparameters⟩ := h
    simp only [content, Content.kind, manager_eq hmanager, uint64_eq hamount,
      address_eq hdestination, parameters_eq hparameters, Outcome.ok_bind, Outcome.pure_eq_ok]
  | origination manager balance delegate script =>
    obtain ⟨hmanager, hbalance, hdelegate, hscript⟩ := h
    simp only [content, Content.kind, manager_eq hmanager, uint64_eq hbalance,
      optionalAddress_eq hdelegate, script_eq hscript, Outcome.ok_bind, Outcome.pure_eq_ok]
  | delegation manager delegate =>
    obtain ⟨hmanager, hdelegate⟩ := h
    simp only [content, Content.kind, manager_eq hmanager, optionalAddress_eq hdelegate,
      Outcome.ok_bind, Outcome.pure_eq_ok]

end Fields

namespace Content

theorem Kind.ofName?_name (kind : Kind) : Kind.ofName? kind.name = some kind := by
  cases kind <;> decide

/-- A content is read as it is written. -/
theorem ofJson_of_writtenAs {content : Content} {value : Json} (h : content.WrittenAs value) :
    ofJson value = .ok content := by
  obtain ⟨entries, rfl, ⟨_, hkind, rfl⟩, hentries⟩ := h
  simp only [ofJson, hkind, Option.bind_some, asString?, Kind.ofName?_name,
    Fields.content_eq hentries]

/-- Contents are read in order, each as it is written. -/
theorem mapM_ofJson_of_writtenAs {contents : List Content} {values : List Json}
    (h : List.Forall₂ WrittenAs contents values) : values.mapM ofJson = .ok contents := by
  rw [Outcome.mapM_eq_ok_iff]
  exact h.flip.imp fun _ _ => ofJson_of_writtenAs

theorem ofJson_text_eq {contents : List Content} {text : String}
    (h : parseAll text = .ok contents) (branch : String) :
    ForgedOperation.ofJson branch text = ForgedOperation.ofContents branch contents := by
  rw [ForgedOperation.ofJson, h, Outcome.ok_bind]

/-- Contents mean what they are written as. Each can be written, and is read from each of its JSON
values. A JSON text of an array of contents is read as their list and that of a single content as
the list of it, and they are forged as the list is, with the same errors. -/
theorem json_means_content :
    (∀ content, Datable content → ∃ value, WrittenAs content value) ∧
      (∀ content value, WrittenAs content value → ofJson value = .ok content) ∧
      (∀ contents values text, List.Forall₂ WrittenAs contents values →
        Json.parse? text = some (.array values) → parseAll text = .ok contents ∧
          ∀ branch, ForgedOperation.ofJson branch text =
            ForgedOperation.ofContents branch contents) ∧
      ∀ content value text, WrittenAs content value → Json.parse? text = some value →
        parseAll text = .ok [content] ∧
          ∀ branch, ForgedOperation.ofJson branch text =
            ForgedOperation.ofContents branch [content] := by
  refine ⟨fun _ => exists_writtenAs, fun _ _ => ofJson_of_writtenAs,
    fun contents values text hwritten htext => ?_, fun content value text hwritten htext => ?_⟩
  · have hparse : parseAll text = .ok contents := by
      simp only [parseAll, htext, allOfJson, mapM_ofJson_of_writtenAs hwritten]
    exact ⟨hparse, ofJson_text_eq hparse⟩
  · have hread := ofJson_of_writtenAs hwritten
    obtain ⟨entries, rfl, -⟩ := hwritten
    have hparse : parseAll text = .ok [content] := by
      simp only [parseAll, htext, allOfJson, hread, Outcome.ok_bind, Outcome.pure_eq_ok]
    exact ⟨hparse, ofJson_text_eq hparse⟩

/-- A call at the entrypoint `default`. -/
def defaultCall : Content :=
  .transaction (Sample.manager 3000 10 20000 0) 0 Sample.contract
    (some ⟨"default", .prim "Pair" [.string "x", .int (-10)] ["%from"]⟩)

/-- A JSON value of the call that mixes numbers and numerals and names no entrypoint. -/
def defaultCallJson : Json := .members [
  ("amount", .number (.integer 0)),
  ("counter", .string "10"),
  ("destination", .string Sample.contract.toText),
  ("fee", .number (.integer 3000)),
  ("gas_limit", .string "20000"),
  ("kind", .string "transaction"),
  ("parameters", .members [
    ("entrypoint", .null),
    ("value", (Micheline.prim "Pair" [.string "x", .int (-10)] ["%from"]).toJson)]),
  ("source", .string Sample.source.toText),
  ("storage_limit", .string "0")]

/-- An endorsement, with its level as a numeral. -/
def numeralText : String := "\x7b\"level\": \"-1\", \"kind\": \"endorsement\"\x7d"

/-- An endorsement, with its level as a number. -/
def numberText : String := "\x7b\"kind\": \"endorsement\", \"level\": 7\x7d"

/-- The call is read from its value, and endorsements from a text of one or two. -/
theorem json_means_content_defaultCall :
    (defaultCall.WrittenAs defaultCallJson ∧ ofJson defaultCallJson = .ok defaultCall) ∧
      parseAll ("[" ++ numeralText ++ "," ++ numberText ++ "]") =
        .ok [.endorsement (-1), .endorsement 7] ∧
      parseAll numeralText = .ok [.endorsement (-1)] := by
  have hcall : defaultCall.WrittenAs defaultCallJson :=
    ⟨_, rfl, ⟨_, rfl, rfl⟩,
      ⟨⟨_, rfl, rfl⟩, ⟨_, rfl, .number⟩, ⟨_, rfl, .numeral⟩, ⟨_, rfl, .numeral⟩,
        ⟨_, rfl, .numeral⟩⟩,
      ⟨_, rfl, .number⟩, ⟨_, rfl, rfl⟩, _, rfl, _, rfl, .inr ⟨rfl, .inr rfl⟩, _, rfl, rfl⟩
  have hnumeral : (endorsement (-1)).WrittenAs
      (.members [("kind", .string "endorsement"), ("level", .string "-1")]) :=
    ⟨_, rfl, ⟨_, rfl, rfl⟩, _, rfl, .numeral⟩
  have hnumber : (endorsement 7).WrittenAs
      (.members [("kind", .string "endorsement"), ("level", .number (.integer 7))]) :=
    ⟨_, rfl, ⟨_, rfl, rfl⟩, _, rfl, .number⟩
  exact ⟨⟨hcall, json_means_content.2.1 _ _ hcall⟩,
    (json_means_content.2.2.1 _ _ _ (.cons hnumeral (.cons hnumber .nil)) rfl).1,
    (json_means_content.2.2.2 _ _ _ hnumeral rfl).1⟩

end Content

end TezosWallet
