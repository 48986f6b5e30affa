import TezosWallet.Proofs.Operation.Json
import TezosWallet.Proofs.Operation.Number

/-!
# What of a JSON object a content depends on

The object of a content may have any members. Those that its kind does not read are not looked at,
neither in the object itself nor in the objects inside it, and a member that is null is as good as
none. So two objects that agree on what is read, so understood, give the same content, or the same
error: nothing else can change what is forged, or what is said to be wrong.

## Main definitions

* `Json.Shape` — which part of a member is read.
* `Json.Agree`, `Json.AgreeAll` — two objects agree on a member, or on some of their members.
* `Content.Kind.members` — the members that a kind reads.

## Main results

* `Fields.nested_congr` — agreement inside the object of a member.
* `Fields.content_congr` — objects that agree on what a kind reads make the same content of it.
* `Content.ofJson_eq_of_agree` — objects that agree on their kind, and on what it reads, do.
-/

namespace TezosWallet

namespace Json

theorem asString?_eq_some_iff {value : Json} {text : String} :
    value.asString? = some text ↔ value = .string text := by
  cases value <;> simp [asString?]

/-- Which part of a member is read. -/
inductive Shape
  /-- All of it. -/
  | whole
  /-- These members of an object, each in its shape. -/
  | object (members : List (String × Shape))

/-- Two objects agree on a member, as far as it is read. -/
inductive Agree : Shape → String → List (String × Json) → List (String × Json) → Prop
  /-- Both lack it. -/
  | lacking {shape : Shape} {key : String} {entries entries' : List (String × Json)}
      (h : Lacks entries key) (h' : Lacks entries' key) : Agree shape key entries entries'
  /-- Both have the same one. -/
  | same {shape : Shape} {key : String} {entries entries' : List (String × Json)} {value : Json}
      (h : lookup key entries = some value) (h' : lookup key entries' = some value) :
    Agree shape key entries entries'
  /-- Both have an object, and these agree on their members. -/
  | inside {members : List (String × Shape)} {key : String}
      {entries entries' inner inner' : List (String × Json)}
      (h : lookup key entries = some (.members inner))
      (h' : lookup key entries' = some (.members inner'))
      (hinner : ∀ member ∈ members, Agree member.2 member.1 inner inner') :
    Agree (.object members) key entries entries'

/-- Two objects agree on some of their members. -/
def AgreeAll (members : List (String × Shape)) (entries entries' : List (String × Json)) : Prop :=
  ∀ member ∈ members, Agree member.2 member.1 entries entries'

theorem Agree.refl (shape : Shape) (key : String) (entries : List (String × Json)) :
    Agree shape key entries entries := by
  cases h : lookup key entries with
  | none => exact .lacking (.inl h) (.inl h)
  | some value => exact .same h h

theorem AgreeAll.refl (members : List (String × Shape)) (entries : List (String × Json)) :
    AgreeAll members entries entries :=
  fun _ _ => .refl _ _ _

end Json

open Json

/-! ### The members that are read -/

namespace Content.Kind

/-- The members of an operation that an account pays for. -/
def managerMembers : List (String × Shape) := [
  ("source", .whole), ("fee", .whole), ("counter", .whole), ("gas_limit", .whole),
  ("storage_limit", .whole)]

/-- The members of a call. -/
def parametersShape : Shape := .object [("entrypoint", .whole), ("value", .whole)]

/-- The members of a script. -/
def scriptShape : Shape := .object [("code", .whole), ("storage", .whole)]

/-- The members of a signed endorsement, and those of the endorsement in it. -/
def inlinedEndorsementShape : Shape := .object [
  ("branch", .whole), ("operations", .object [("kind", .whole), ("level", .whole)]),
  ("signature", .whole)]

/-- The members of a signed block header. -/
def blockHeaderShape : Shape := .object [
  ("level", .whole), ("proto", .whole), ("predecessor", .whole), ("timestamp", .whole),
  ("validation_pass", .whole), ("operations_hash", .whole), ("fitness", .whole),
  ("context", .whole), ("priority", .whole), ("proof_of_work_nonce", .whole),
  ("seed_nonce_hash", .whole), ("signature", .whole)]

/-- The members that a kind reads, besides the kind itself. -/
def members : Kind → List (String × Shape)
  | endorsement => [("level", .whole)]
  | seedNonceRevelation => [("level", .whole), ("nonce", .whole)]
  | doubleEndorsementEvidence =>
    [("op1", inlinedEndorsementShape), ("op2", inlinedEndorsementShape)]
  | doubleBakingEvidence => [("bh1", blockHeaderShape), ("bh2", blockHeaderShape)]
  | activateAccount => [("pkh", .whole), ("secret", .whole)]
  | proposals => [("source", .whole), ("period", .whole), ("proposals", .whole)]
  | ballot => [("source", .whole), ("period", .whole), ("proposal", .whole), ("ballot", .whole)]
  | reveal => managerMembers ++ [("public_key", .whole)]
  | transaction => managerMembers ++
    [("amount", .whole), ("destination", .whole), ("parameters", parametersShape)]
  | origination => managerMembers ++
    [("balance", .whole), ("delegate", .whole), ("script", scriptShape)]
  | delegation => managerMembers ++ [("delegate", .whole)]

end Content.Kind

namespace Fields

variable {kind : Content.Kind} {key : String} {entries entries' : List (String × Json)}

/-! ### Members that are read as a whole -/

section Whole

variable (h : Agree .whole key entries entries')
include h

theorem optional_congr :
    Fields.optional ⟨kind, entries⟩ key = Fields.optional ⟨kind, entries'⟩ key := by
  cases h with
  | lacking h h' => rw [optional_eq_none h, optional_eq_none h']
  | same h h' => rw [optional, optional, h, h']

theorem get_congr : Fields.get ⟨kind, entries⟩ key = Fields.get ⟨kind, entries'⟩ key := by
  rw [get, optional_congr h]
  rfl

theorem text_congr : Fields.text ⟨kind, entries⟩ key = Fields.text ⟨kind, entries'⟩ key := by
  rw [Fields.text, get_congr h]
  rfl

theorem items_congr : Fields.items ⟨kind, entries⟩ key = Fields.items ⟨kind, entries'⟩ key := by
  rw [Fields.items, get_congr h]
  rfl

theorem natural_congr :
    Fields.natural ⟨kind, entries⟩ key = Fields.natural ⟨kind, entries'⟩ key := by
  rw [natural, get_congr h]
  rfl

theorem uint64_congr : Fields.uint64 ⟨kind, entries⟩ key = Fields.uint64 ⟨kind, entries'⟩ key := by
  rw [uint64, natural_congr h]
  rfl

theorem below_congr (bound : Nat) :
    Fields.below ⟨kind, entries⟩ bound key = Fields.below ⟨kind, entries'⟩ bound key := by
  rw [below, natural_congr h]
  rfl

theorem int32_congr : Fields.int32 ⟨kind, entries⟩ key = Fields.int32 ⟨kind, entries'⟩ key := by
  rw [int32, get_congr h]
  rfl

theorem address_congr :
    Fields.address ⟨kind, entries⟩ key = Fields.address ⟨kind, entries'⟩ key := by
  rw [address, text_congr h]
  rfl

theorem optionalAddress_congr :
    Fields.optionalAddress ⟨kind, entries⟩ key = Fields.optionalAddress ⟨kind, entries'⟩ key := by
  rw [optionalAddress, optional_congr h, address_congr h]
  rfl

theorem publicKey_congr :
    Fields.publicKey ⟨kind, entries⟩ key = Fields.publicKey ⟨kind, entries'⟩ key := by
  rw [publicKey, text_congr h]
  rfl

theorem hash_congr (version : Version) :
    Fields.hash ⟨kind, entries⟩ version key = Fields.hash ⟨kind, entries'⟩ version key := by
  rw [Fields.hash, text_congr h]
  rfl

theorem optionalHash_congr (version : Version) :
    Fields.optionalHash ⟨kind, entries⟩ version key =
      Fields.optionalHash ⟨kind, entries'⟩ version key := by
  rw [optionalHash, optional_congr h, hash_congr h]
  rfl

theorem signature_congr :
    Fields.signature ⟨kind, entries⟩ key = Fields.signature ⟨kind, entries'⟩ key := by
  rw [signature, text_congr h]
  rfl

theorem hex_congr (size : Nat) :
    Fields.hex ⟨kind, entries⟩ size key = Fields.hex ⟨kind, entries'⟩ size key := by
  rw [Fields.hex, text_congr h]
  rfl

theorem timestamp_congr :
    Fields.timestamp ⟨kind, entries⟩ key = Fields.timestamp ⟨kind, entries'⟩ key := by
  rw [timestamp, text_congr h]
  rfl

theorem fitness_congr :
    Fields.fitness ⟨kind, entries⟩ key = Fields.fitness ⟨kind, entries'⟩ key := by
  rw [fitness, items_congr h]
  rfl

theorem protocols_congr :
    Fields.protocols ⟨kind, entries⟩ key = Fields.protocols ⟨kind, entries'⟩ key := by
  rw [protocols, items_congr h]
  rfl

theorem vote_congr : Fields.vote ⟨kind, entries⟩ key = Fields.vote ⟨kind, entries'⟩ key := by
  rw [vote, text_congr h]
  rfl

theorem micheline_congr :
    Fields.micheline ⟨kind, entries⟩ key = Fields.micheline ⟨kind, entries'⟩ key := by
  rw [micheline, get_congr h]
  rfl

end Whole

/-! ### Members that are objects -/

/-- A member that is read as an object is wrong in both objects alike, or is an object in both. -/
theorem nested_of_agree (kind : Content.Kind) {members : List (String × Shape)}
    (h : Agree (.object members) key entries entries') :
    (∃ fault, Fields.nested ⟨kind, entries⟩ key = .error fault ∧
      Fields.nested ⟨kind, entries'⟩ key = .error fault) ∨
    ∃ inner inner', Fields.nested ⟨kind, entries⟩ key = .ok ⟨kind, inner⟩ ∧
      Fields.nested ⟨kind, entries'⟩ key = .ok ⟨kind, inner'⟩ ∧ AgreeAll members inner inner' := by
  cases h with
  | lacking h h' =>
    refine .inl ⟨.invalidField kind key .missing, ?_, ?_⟩
    · rw [nested, get, optional_eq_none h]; rfl
    · rw [nested, get, optional_eq_none h']; rfl
  | same h h' =>
    have hnested : Fields.nested ⟨kind, entries⟩ key = Fields.nested ⟨kind, entries'⟩ key := by
      rw [nested, get_congr (.same h h')]
      rfl
    cases hresult : Fields.nested ⟨kind, entries⟩ key with
    | error fault => exact .inl ⟨fault, rfl, hnested ▸ hresult⟩
    | ok object =>
      obtain ⟨inner, -, rfl⟩ := nested_eq_ok_iff.mp hresult
      exact .inr ⟨inner, inner, rfl, hnested ▸ hresult, .refl _ _⟩
  | inside h h' hinner => exact .inr ⟨_, _, nested_eq h, nested_eq h', hinner⟩

theorem nested_congr {α : Type} {members : List (String × Shape)}
    {next next' : Fields → Except ForgeError α} (h : Agree (.object members) key entries entries')
    (hnext : ∀ inner inner', AgreeAll members inner inner' →
      next ⟨kind, inner⟩ = next' ⟨kind, inner'⟩) :
    (Fields.nested ⟨kind, entries⟩ key >>= next) =
      (Fields.nested ⟨kind, entries'⟩ key >>= next') := by
  obtain ⟨fault, h, h'⟩ | ⟨inner, inner', h, h', hinner⟩ := nested_of_agree kind h
  · rw [h, h']; rfl
  · rw [h, h']; exact hnext inner inner' hinner

theorem manager_congr (h : AgreeAll Content.Kind.managerMembers entries entries') :
    Fields.manager ⟨kind, entries⟩ = Fields.manager ⟨kind, entries'⟩ := by
  simp only [AgreeAll, Content.Kind.managerMembers, List.forall_mem_cons] at h
  obtain ⟨hsource, hfee, hcounter, hgasLimit, hstorageLimit, -⟩ := h
  simp only [manager, address_congr hsource, uint64_congr hfee, uint64_congr hcounter,
    uint64_congr hgasLimit, uint64_congr hstorageLimit]

theorem script_congr (h : Agree Content.Kind.scriptShape key entries entries') :
    Fields.script ⟨kind, entries⟩ key = Fields.script ⟨kind, entries'⟩ key := by
  refine nested_congr h fun inner inner' hinner => ?_
  simp only [AgreeAll, List.forall_mem_cons] at hinner
  obtain ⟨hcode, hstorage, -⟩ := hinner
  rw [micheline_congr hcode, micheline_congr hstorage]

theorem inlinedEndorsement_congr
    (h : Agree Content.Kind.inlinedEndorsementShape key entries entries') :
    Fields.inlinedEndorsement ⟨kind, entries⟩ key =
      Fields.inlinedEndorsement ⟨kind, entries'⟩ key := by
  refine nested_congr h fun inner inner' hinner => ?_
  simp only [AgreeAll, List.forall_mem_cons] at hinner
  obtain ⟨hbranch, hoperations, hsignature, -⟩ := hinner
  refine nested_congr hoperations fun operation operation' hoperation => ?_
  simp only [AgreeAll, List.forall_mem_cons] at hoperation
  obtain ⟨hkind, hlevel, -⟩ := hoperation
  simp only [text_congr hkind, hash_congr hbranch, int32_congr hlevel, signature_congr hsignature,
    invalid]

theorem blockHeader_congr (h : Agree Content.Kind.blockHeaderShape key entries entries') :
    Fields.blockHeader ⟨kind, entries⟩ key = Fields.blockHeader ⟨kind, entries'⟩ key := by
  refine nested_congr h fun inner inner' hinner => ?_
  simp only [AgreeAll, List.forall_mem_cons] at hinner
  obtain ⟨hlevel, hproto, hpredecessor, htimestamp, hvalidationPass, hoperationsHash, hfitness,
    hcontext, hpriority, hproofOfWorkNonce, hseedNonceHash, hsignature, -⟩ := hinner
  simp only [timestamp_congr htimestamp, fitness_congr hfitness, optionalHash_congr hseedNonceHash,
    int32_congr hlevel, below_congr hproto, hash_congr hpredecessor, below_congr hvalidationPass,
    hash_congr hoperationsHash, hash_congr hcontext, below_congr hpriority,
    hex_congr hproofOfWorkNonce, signature_congr hsignature]

/-- A member is there in both objects, or in neither, whatever is read of it. -/
theorem isSome_optional_congr (kind : Content.Kind) {shape : Shape}
    (h : Agree shape key entries entries') :
    (Fields.optional ⟨kind, entries⟩ key).isSome =
      (Fields.optional ⟨kind, entries'⟩ key).isSome := by
  cases h with
  | lacking h h' => rw [optional_eq_none h, optional_eq_none h']
  | same h h' => rw [optional, optional, h, h']
  | inside h h' => rw [optional, optional, h, h']; rfl

theorem parameters_congr (h : Agree Content.Kind.parametersShape key entries entries') :
    Fields.parameters ⟨kind, entries⟩ key = Fields.parameters ⟨kind, entries'⟩ key := by
  have hsome := isSome_optional_congr kind h
  rw [parameters, parameters]
  cases hcall : Fields.optional ⟨kind, entries⟩ key with
  | none =>
    rw [hcall] at hsome
    rw [Option.isNone_iff_eq_none.mp (Option.isSome_eq_false_iff.mp hsome.symm)]
  | some call =>
    rw [hcall] at hsome
    obtain ⟨call', hcall'⟩ := Option.isSome_iff_exists.mp hsome.symm
    rw [hcall']
    refine nested_congr h fun inner inner' hinner => ?_
    simp only [AgreeAll, List.forall_mem_cons] at hinner
    obtain ⟨hentrypoint, hvalue, -⟩ := hinner
    simp only [optional_congr hentrypoint, text_congr hentrypoint, micheline_congr hvalue]

/-- Objects that agree on what a kind reads make the same content of that kind, or fail alike. -/
theorem content_congr (h : AgreeAll kind.members entries entries') :
    Fields.content ⟨kind, entries⟩ = Fields.content ⟨kind, entries'⟩ := by
  unfold AgreeAll at h
  cases kind with
  | endorsement =>
    simp only [Content.Kind.members, List.forall_mem_cons] at h
    obtain ⟨hlevel, -⟩ := h
    simp only [content, int32_congr hlevel]
  | seedNonceRevelation =>
    simp only [Content.Kind.members, List.forall_mem_cons] at h
    obtain ⟨hlevel, hnonce, -⟩ := h
    simp only [content, int32_congr hlevel, hex_congr hnonce]
  | doubleEndorsementEvidence =>
    simp only [Content.Kind.members, List.forall_mem_cons] at h
    obtain ⟨hop1, hop2, -⟩ := h
    simp only [content, inlinedEndorsement_congr hop1, inlinedEndorsement_congr hop2]
  | doubleBakingEvidence =>
    simp only [Content.Kind.members, List.forall_mem_cons] at h
    obtain ⟨hbh1, hbh2, -⟩ := h
    simp only [content, blockHeader_congr hbh1, blockHeader_congr hbh2]
  | activateAccount =>
    simp only [Content.Kind.members, List.forall_mem_cons] at h
    obtain ⟨hpkh, hsecret, -⟩ := h
    simp only [content, address_congr hpkh, hex_congr hsecret]
  | proposals =>
    simp only [Content.Kind.members, List.forall_mem_cons] at h
    obtain ⟨hsource, hperiod, hproposals, -⟩ := h
    simp only [content, protocols_congr hproposals, address_congr hsource, int32_congr hperiod]
  | ballot =>
    simp only [Content.Kind.members, List.forall_mem_cons] at h
    obtain ⟨hsource, hperiod, hproposal, hballot, -⟩ := h
    simp only [content, vote_congr hballot, address_congr hsource, int32_congr hperiod,
      hash_congr hproposal]
  | reveal =>
    simp only [Content.Kind.members, List.forall_mem_append, List.forall_mem_cons] at h
    obtain ⟨hmanager, hkey, -⟩ := h
    simp only [content, publicKey_congr hkey, manager_congr hmanager]
  | transaction =>
    simp only [Content.Kind.members, List.forall_mem_append, List.forall_mem_cons] at h
    obtain ⟨hmanager, hamount, hdestination, hparameters, -⟩ := h
    simp only [content, manager_congr hmanager, uint64_congr hamount, address_congr hdestination,
      parameters_congr hparameters]
  | origination =>
    simp only [Content.Kind.members, List.forall_mem_append, List.forall_mem_cons] at h
    obtain ⟨hmanager, hbalance, hdelegate, hscript, -⟩ := h
    simp only [content, manager_congr hmanager, uint64_congr hbalance,
      optionalAddress_congr hdelegate, script_congr hscript]
  | delegation =>
    simp only [Content.Kind.members, List.forall_mem_append, List.forall_mem_cons] at h
    obtain ⟨hmanager, hdelegate, -⟩ := h
    simp only [content, manager_congr hmanager, optionalAddress_congr hdelegate]

end Fields

namespace Content

theorem Kind.name_of_ofName? {kind : Kind} {name : String} (h : Kind.ofName? name = some kind) :
    kind.name = name := by
  simpa using List.find?_some h

/-- Objects with the same kind that agree on what it reads, where null is as good as nothing, other
members do not matter and the objects inside are compared alike, are the same content, or wrong in
the same way. -/
theorem ofJson_eq_of_agree {entries entries' : List (String × Json)}
    (hkind : Agree .whole "kind" entries entries')
    (hmembers : ∀ kind : Kind, lookup "kind" entries = some (.string kind.name) →
      AgreeAll kind.members entries entries') :
    ofJson (.members entries) = ofJson (.members entries') := by
  have hname :
      (lookup "kind" entries').bind asString? = (lookup "kind" entries).bind asString? := by
    cases hkind with
    | lacking h h' => rcases h with h | h <;> rcases h' with h' | h' <;> rw [h, h'] <;> rfl
    | same h h' => rw [h, h']
  rw [ofJson, ofJson, hname]
  cases hread : (lookup "kind" entries).bind asString? with
  | none => rfl
  | some name =>
    obtain ⟨value, hlookup, hvalue⟩ := Option.bind_eq_some_iff.mp hread
    obtain rfl := asString?_eq_some_iff.mp hvalue
    cases hfound : Kind.ofName? name with
    | none => simp only [hfound]
    | some kind =>
      obtain rfl := Kind.name_of_ofName? hfound
      simp only [hfound]
      exact Fields.content_congr (hmembers kind hlookup)

/-- Evidence with a comment in it and a branch that is null, and evidence without either. -/
theorem ofJson_eq_of_agree_comment :
    let operations := Json.members [("kind", .string "endorsement"), ("level", .string "7")]
    let entries := [("comment", .bool true), ("kind", .string "double_endorsement_evidence"),
      ("op1", .members [("branch", .null), ("comment", .null), ("operations", operations)])]
    let entries' := [("kind", .string "double_endorsement_evidence"),
      ("op1", .members [("operations", operations)]), ("op2", .null)]
    ofJson (.members entries) = ofJson (.members entries') ∧
      ofJson (.members entries') =
        .error (.invalidField .doubleEndorsementEvidence "branch" .missing) := by
  intro operations entries entries'
  refine ⟨ofJson_eq_of_agree (.same rfl rfl) fun kind hkind => ?_, rfl⟩
  have hname : "double_endorsement_evidence" = kind.name := by
    have hlookup : lookup "kind" entries = some (.string "double_endorsement_evidence") := rfl
    exact Json.string.inj (Option.some.inj (hlookup.symm.trans hkind))
  obtain rfl : kind = .doubleEndorsementEvidence := by
    revert hname
    cases kind <;> decide
  simp only [AgreeAll, Kind.members, List.forall_mem_cons]
  refine ⟨.inside rfl rfl ?_, .lacking (.inl rfl) (.inr rfl), nofun⟩
  simp only [List.forall_mem_cons]
  exact ⟨.lacking (.inr rfl) (.inl rfl), .same rfl rfl, .lacking (.inl rfl) (.inl rfl), nofun⟩

end Content

end TezosWallet
