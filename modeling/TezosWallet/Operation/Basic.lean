import TezosWallet.Expression
import TezosWallet.PublicKey
import TezosWallet.Timestamp

/-!
# Operation contents

An operation is a list of contents on top of a branch. Each content is of one of eleven kinds and
carries the fields of its kind only.

## Main definitions

* `Content` — one content; `Content.Kind` — its kind, with `name` and `tag`.
* `ManagerFields`, `Parameters`, `Script`, `InlinedEndorsement`, `BlockHeader` — shared parts.
-/

namespace TezosWallet

/-- The fields shared by the operations that an account pays for. -/
structure ManagerFields where
  source : Address
  /-- The fee in millionths. -/
  fee : UInt64
  counter : UInt64
  gasLimit : UInt64
  storageLimit : UInt64

/-- The call of a contract. -/
structure Parameters where
  entrypoint : String
  value : Micheline

/-- The script of a new contract. -/
structure Script where
  code : Micheline
  storage : Micheline

/-- A vote on a proposal. -/
inductive Vote
  | yay
  | nay
  | pass
  deriving DecidableEq, Repr

/-- The byte of a vote. -/
def Vote.byte : Vote → UInt8
  | yay => 0
  | nay => 1
  | pass => 2

/-- The vote of a name. -/
def Vote.ofName? (name : String) : Option Vote :=
  if name = "yay" then some yay
  else if name = "nay" then some nay
  else if name = "pass" then some pass
  else none

/-- A signed endorsement, as evidence carries it. -/
structure InlinedEndorsement where
  branch : FixedBytes 32
  level : Int32
  signature : FixedBytes 64

/-- A signed block header, as evidence carries it. -/
structure BlockHeader where
  level : Int32
  proto : UInt8
  predecessor : FixedBytes 32
  timestamp : Timestamp
  validationPass : UInt8
  operationsHash : FixedBytes 32
  fitness : List Bytes
  context : FixedBytes 32
  priority : UInt16
  proofOfWorkNonce : FixedBytes 8
  seedNonceHash : Option (FixedBytes 32)
  signature : FixedBytes 64

/-- One content of an operation. -/
inductive Content
  /-- A baker's vote for the block of a level. -/
  | endorsement (level : Int32)
  /-- The nonce that was committed at a level. -/
  | seedNonceRevelation (level : Int32) (nonce : FixedBytes 32)
  /-- Proof that a baker endorsed twice at one level. -/
  | doubleEndorsementEvidence (op1 op2 : InlinedEndorsement)
  /-- Proof that a baker baked twice at one level. -/
  | doubleBakingEvidence (bh1 bh2 : BlockHeader)
  /-- The activation of a fundraiser account. -/
  | activateAccount (pkh : Address) (secret : FixedBytes 20)
  /-- Proposals of protocols. -/
  | proposals (source : Address) (period : Int32) (protocols : List (FixedBytes 32))
  /-- A vote on the current proposal. -/
  | ballot (source : Address) (period : Int32) (protocol : FixedBytes 32) (vote : Vote)
  /-- The publication of the source's public key. -/
  | reveal (manager : ManagerFields) (publicKey : PublicKey)
  /-- A transfer, or the call of a contract. -/
  | transaction (manager : ManagerFields) (amount : UInt64) (destination : Address)
      (parameters : Option Parameters)
  /-- A new contract. -/
  | origination (manager : ManagerFields) (balance : UInt64) (delegate : Option Address)
      (script : Script)
  /-- A new delegate, or none any more. -/
  | delegation (manager : ManagerFields) (delegate : Option Address)

/-- The kinds of content. -/
inductive Content.Kind
  | endorsement
  | seedNonceRevelation
  | doubleEndorsementEvidence
  | doubleBakingEvidence
  | activateAccount
  | proposals
  | ballot
  | reveal
  | transaction
  | origination
  | delegation
  deriving DecidableEq, Repr

namespace Content

namespace Kind

/-- All kinds. -/
def all : List Kind := [endorsement, seedNonceRevelation, doubleEndorsementEvidence,
  doubleBakingEvidence, activateAccount, proposals, ballot, reveal, transaction, origination,
  delegation]

/-- The name of a kind. -/
def name : Kind → String
  | endorsement => "endorsement"
  | seedNonceRevelation => "seed_nonce_revelation"
  | doubleEndorsementEvidence => "double_endorsement_evidence"
  | doubleBakingEvidence => "double_baking_evidence"
  | activateAccount => "activate_account"
  | proposals => "proposals"
  | ballot => "ballot"
  | reveal => "reveal"
  | transaction => "transaction"
  | origination => "origination"
  | delegation => "delegation"

/-- The kind of a name. -/
def ofName? (name : String) : Option Kind := all.find? fun kind => kind.name = name

/-- The byte that a forged content of a kind begins with. -/
def tag : Kind → UInt8
  | endorsement => 0
  | seedNonceRevelation => 1
  | doubleEndorsementEvidence => 2
  | doubleBakingEvidence => 3
  | activateAccount => 4
  | proposals => 5
  | ballot => 6
  | reveal => 107
  | transaction => 108
  | origination => 109
  | delegation => 110

end Kind

/-- The kind of a content. -/
def kind : Content → Kind
  | endorsement .. => .endorsement
  | seedNonceRevelation .. => .seedNonceRevelation
  | doubleEndorsementEvidence .. => .doubleEndorsementEvidence
  | doubleBakingEvidence .. => .doubleBakingEvidence
  | activateAccount .. => .activateAccount
  | proposals .. => .proposals
  | ballot .. => .ballot
  | reveal .. => .reveal
  | transaction .. => .transaction
  | origination .. => .origination
  | delegation .. => .delegation

end Content

end TezosWallet
