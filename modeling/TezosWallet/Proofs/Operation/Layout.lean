import TezosWallet.Proofs.Base58.Check
import TezosWallet.Proofs.Micheline.Layout
import TezosWallet.Operation.Forge

/-!
# The layout of operations

Forging fills one buffer in place and restores it when a content fails. What a content appends is
its layout, which does not depend on the buffer: the byte of its kind and its fields, or the fault
of the first field that cannot be forged.

## Main definitions

* `Content.layout` — the bytes of a content, or why it has none.

## Main results

* `Content.append_denotes`, `Content.appendAll_denotes` — appending contents appends their layouts.
* `ForgedOperation.ofContents_eq` — the branch and the contents of an operation apart.
* `ForgedOperation.ofContents_eq_ok_iff` — a forged operation is the hash of its branch and the
  layouts of its contents.
-/

namespace TezosWallet

namespace Content

/-- The layout of the key hash of an account that must not be a contract. -/
def layoutKeyHash (kind : Kind) (field : String) (address : Address) : Layout ForgeError :=
  address.forgeKeyHash.mapError fun fault => .invalidField kind field (.address fault)

/-- The layout of the fields of a content that an account pays for. -/
def layoutManager (kind : Kind) (manager : ManagerFields) : Layout ForgeError :=
  layoutKeyHash kind "source" manager.source ++
    (.ok (forgeAmount manager.fee) ++ (.ok (forgeAmount manager.counter) ++
      (.ok (forgeAmount manager.gasLimit) ++ .ok (forgeAmount manager.storageLimit))))

/-- The layout of an optional delegate. -/
def layoutDelegate (kind : Kind) (delegate : Option Address) : Layout ForgeError :=
  Layout.optional presentFlag absentFlag (layoutKeyHash kind "delegate") delegate

/-- The layout of a tree behind its length. -/
def layoutTree (node : Micheline) : Layout ForgeError :=
  Layout.framed (node.layout.mapError .micheline)

/-- The layout of the name of an entrypoint. -/
def layoutEntrypoint (kind : Kind) (name : String) : Layout ForgeError :=
  match entrypointTag? name with
  | some tag => .ok [tag]
  | none =>
    let bytes := Bytes.utf8 name
    if 0 < bytes.length ∧ bytes.length ≤ longestEntrypoint then
      .ok (0xff :: UInt8.ofNat bytes.length :: bytes)
    else .error (.invalidField kind "entrypoint" (.entrypointLength longestEntrypoint))

/-- The layout of the optional call of a contract. -/
def layoutParameters (kind : Kind) (parameters : Option Parameters) : Layout ForgeError :=
  Layout.optional presentFlag absentFlag
    (fun call => layoutEntrypoint kind call.entrypoint ++ layoutTree call.value) parameters

/-- The layout of the hash of an account that must be one of an Ed25519 key. -/
def layoutTz1Hash (kind : Kind) (field : String) (address : Address) : Layout ForgeError :=
  match address with
  | .implicit .ed25519 hash => .ok hash.toBytes
  | _ => .error (.invalidField kind field .notTz1)

/-- The layout of the fields of a content. -/
def layoutFields (content : Content) : Layout ForgeError :=
  let kind := content.kind
  match content with
  | endorsement level => .ok (forgeInt32 level)
  | seedNonceRevelation level nonce => .ok (forgeInt32 level) ++ .ok nonce.toBytes
  | doubleEndorsementEvidence op1 op2 => .ok (frame op1.forge) ++ .ok (frame op2.forge)
  | doubleBakingEvidence bh1 bh2 => .ok (frame bh1.forge) ++ .ok (frame bh2.forge)
  | activateAccount pkh secret => layoutTz1Hash kind "pkh" pkh ++ .ok secret.toBytes
  | proposals source period protocols =>
    layoutKeyHash kind "source" source ++
      (.ok (forgeInt32 period) ++ .ok (frame (protocols.flatMap FixedBytes.toBytes)))
  | ballot source period protocol vote =>
    layoutKeyHash kind "source" source ++
      (.ok (forgeInt32 period) ++ (.ok protocol.toBytes ++ .ok [vote.byte]))
  | reveal manager publicKey => layoutManager kind manager ++ .ok publicKey.forge
  | transaction manager amount destination parameters =>
    layoutManager kind manager ++
      (.ok (forgeAmount amount) ++
        (.ok destination.forgeContract ++ layoutParameters kind parameters))
  | origination manager balance delegate script =>
    layoutManager kind manager ++
      (.ok (forgeAmount balance) ++
        (layoutDelegate kind delegate ++ (layoutTree script.code ++ layoutTree script.storage)))
  | delegation manager delegate => layoutManager kind manager ++ layoutDelegate kind delegate

/-- The bytes of a content, or why it has none. -/
def layout (content : Content) : Layout ForgeError :=
  .ok [content.kind.tag] ++ content.layoutFields

/-! ### Writing appends layouts -/

open Writer

theorem writeKeyHash_denotes (kind : Kind) (field : String) (address : Address) :
    (writeKeyHash kind field address).Denotes (layoutKeyHash kind field address) := by
  rw [writeKeyHash, layoutKeyHash]
  cases address.forgeKeyHash with
  | ok bytes => exact denotes_put bytes
  | error fault => exact denotes_fail _

theorem writeManager_denotes (kind : Kind) (manager : ManagerFields) :
    (writeManager kind manager).Denotes (layoutManager kind manager) :=
  (writeKeyHash_denotes ..).andThen ((denotes_put _).andThen ((denotes_put _).andThen
    ((denotes_put _).andThen (denotes_put _))))

theorem writeDelegate_denotes (kind : Kind) (delegate : Option Address) :
    (writeDelegate kind delegate).Denotes (layoutDelegate kind delegate) := by
  cases delegate with
  | none => exact denotes_put [absentFlag]
  | some delegate => exact (denotes_put [presentFlag]).andThen (writeKeyHash_denotes ..)

theorem writeTree_denotes (node : Micheline) : (writeTree node).Denotes (layoutTree node) :=
  (Micheline.write_denotes node).mapFault.framed

theorem writeEntrypoint_denotes (kind : Kind) (name : String) :
    (writeEntrypoint kind name).Denotes (layoutEntrypoint kind name) := by
  rw [writeEntrypoint, layoutEntrypoint]
  cases entrypointTag? name with
  | some tag => exact denotes_put [tag]
  | none =>
    dsimp only
    split
    · exact denotes_put _
    · exact denotes_fail _

theorem writeParameters_denotes (kind : Kind) (parameters : Option Parameters) :
    (writeParameters kind parameters).Denotes (layoutParameters kind parameters) := by
  cases parameters with
  | none => exact denotes_put [absentFlag]
  | some call =>
    exact (denotes_put [presentFlag]).andThen
      ((writeEntrypoint_denotes ..).andThen (writeTree_denotes _))

theorem writeTz1Hash_denotes (kind : Kind) (field : String) (address : Address) :
    (writeTz1Hash kind field address).Denotes (layoutTz1Hash kind field address) := by
  match address with
  | .implicit .ed25519 hash => exact denotes_put hash.toBytes
  | .implicit .secp256k1 _ | .implicit .p256 _ | .originated _ => exact denotes_fail _

/-- The hashes of proposals are written behind their total length. -/
theorem forEach_put_denotes {n : Nat} (items : List (FixedBytes n)) :
    (framed (.forEach (fun item => .put item.toBytes) items) : Writer ForgeError).Denotes
      (.ok (frame (items.flatMap FixedBytes.toBytes))) := by
  have h : Denotes (.forEach (fun item => .put item.toBytes) items)
      (Layout.each (fun item => (.ok item.toBytes : Layout ForgeError)) items) :=
    Denotes.forEach (fun item => denotes_put item.toBytes) items
  rw [Layout.each_ok] at h
  exact h.framed

theorem writeFields_denotes (content : Content) :
    content.writeFields.Denotes content.layoutFields := by
  cases content with
  | endorsement level => exact denotes_put _
  | seedNonceRevelation level nonce => exact (denotes_put _).andThen (denotes_put _)
  | doubleEndorsementEvidence op1 op2 => exact (denotes_put _).framed.andThen (denotes_put _).framed
  | doubleBakingEvidence bh1 bh2 => exact (denotes_put _).framed.andThen (denotes_put _).framed
  | activateAccount pkh secret => exact (writeTz1Hash_denotes ..).andThen (denotes_put _)
  | proposals source period protocols =>
    exact (writeKeyHash_denotes ..).andThen
      ((denotes_put _).andThen (forEach_put_denotes protocols))
  | ballot source period protocol vote =>
    exact (writeKeyHash_denotes ..).andThen
      ((denotes_put _).andThen ((denotes_put _).andThen (denotes_put _)))
  | reveal manager publicKey => exact (writeManager_denotes ..).andThen (denotes_put _)
  | transaction manager amount destination parameters =>
    exact (writeManager_denotes ..).andThen
      ((denotes_put _).andThen ((denotes_put _).andThen (writeParameters_denotes ..)))
  | origination manager balance delegate script =>
    exact (writeManager_denotes ..).andThen ((denotes_put _).andThen
      ((writeDelegate_denotes ..).andThen ((writeTree_denotes _).andThen (writeTree_denotes _))))
  | delegation manager delegate =>
    exact (writeManager_denotes ..).andThen (writeDelegate_denotes ..)

/-- Appending a content appends its layout, and nothing if it has none. -/
theorem append_denotes (content : Content) : content.append.Denotes content.layout :=
  ((denotes_put _).andThen content.writeFields_denotes).atomic

/-- Appending contents appends their layouts in order, up to the first content without one. -/
theorem appendAll_denotes (contents : List Content) :
    (appendAll contents).Denotes (Layout.each layout contents) :=
  Denotes.forEach append_denotes contents

/-- The forged form of contents is their layouts in order. -/
theorem forgeAll_eq_layout (contents : List Content) :
    forgeAll contents = Layout.each layout contents :=
  (appendAll_denotes contents).run_eq

end Content

namespace ForgedOperation

/-- The branch is read first, and its hash stands in front of the forged form of the contents. -/
theorem ofContents_eq (branch : String) (contents : List Content) :
    ofContents branch contents = (do
      let hash ← (Base58Check.decodeFixed 32 branch Version.blockHash.bytes).mapError .branch
      let bytes ← Content.forgeAll contents
      pure ⟨hash.toBytes ++ bytes⟩) := by
  rw [ofContents]
  refine bind_congr fun hash => ?_
  rw [((Writer.denotes_put _).andThen (Content.appendAll_denotes contents)).run_eq,
    Content.forgeAll_eq_layout]
  cases Layout.each Content.layout contents <;> rfl

/-- A forged operation is the hash of its branch, in front of the layouts of its contents. -/
theorem ofContents_eq_ok_iff {branch : String} {contents : List Content}
    {operation : ForgedOperation} :
    ofContents branch contents = .ok operation ↔
      ∃ hash : FixedBytes 32,
        branch = Base58Check.encode Version.blockHash.bytes hash.toBytes ∧
          ∃ bytes, Layout.each Content.layout contents = .ok bytes ∧
            operation.bytes = hash.toBytes ++ bytes := by
  rw [ofContents_eq, Outcome.bind_eq_ok_iff]
  refine exists_congr fun hash => ?_
  rw [Outcome.mapError_eq_ok_iff, Base58Check.decodeFixed_eq_ok_iff, Content.forgeAll_eq_layout]
  cases Layout.each Content.layout contents with
  | error fault => simp
  | ok bytes =>
    cases operation
    simp [eq_comm]

end ForgedOperation

end TezosWallet
