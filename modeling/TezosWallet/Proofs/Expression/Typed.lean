import TezosWallet.Proofs.Expression
import TezosWallet.Proofs.Identifier
import TezosWallet.Proofs.Micheline.Text

/-!
# Typed keys and trees

Keys of the common types are packed directly, and any key can be given as a tree or as the JSON
text of one. A typed key has the identifier of the literal that stands for it: an address that of
the bytes of its layout, and a key hash that of its twenty-one bytes.

## Main definitions

* `Expression.Names` — the identifier of a tree, packed as it is or read from its JSON text.

## Main results

* `Expression.names_of_layout` — the identifier of a literal.
* `Expression.exists_address_fault_iff` — the texts that are keys of neither type of account.
* `Expression.typed_keys_agree` — typed keys have the identifiers of their trees.
-/

namespace TezosWallet.Expression

open Micheline

/-- The tree has a packed form with the identifier, and so does the tree's JSON text. -/
def Names (node : Micheline) (identifier : String) : Prop :=
  node.pack.map ofPacked = .ok identifier ∧ ofMicheline node.toJson.render = .ok identifier

/-- The identifier of a tree is that of its layout behind the byte of packed data. -/
theorem names_of_layout {node : Micheline} {bytes : Bytes} (hlayout : node.layout = .ok bytes)
    (hdepth : node.toJson.nesting ≤ 127) : Names node (ofPacked (packTag :: bytes)) := by
  have hpack : node.pack = .ok (packTag :: bytes) :=
    pack_eq_of_encode_eq ((encode_eq_layout node).trans hlayout)
  refine ⟨by rw [hpack]; rfl, ?_⟩
  rw [ofMicheline, parse_render hdepth, Outcome.mapError_ok, Outcome.ok_bind, hpack,
    Outcome.mapError_ok, Outcome.ok_bind, Outcome.pure_eq_ok]

theorem names_int (value : Int) : Names (.int value) (ofInt value) :=
  names_of_layout rfl (show 1 ≤ 127 by decide)

theorem names_string (value : String) : Names (.string value) (ofString value) :=
  names_of_layout rfl (show 1 ≤ 127 by decide)

theorem names_bytes (value : Bytes) : Names (.bytes value) (ofBytes value) :=
  names_of_layout rfl (show 1 ≤ 127 by decide)

/-! ### Accounts as keys -/

theorem ofAddress_toText (address : Address) :
    ofAddress address.toText = .ok (ofBytes address.forgeContract) := by
  rw [ofAddress, address.ofText_toText]
  rfl

/-- The key hash of an account is its layout as one, which a contract does not have. -/
theorem ofKeyHash_toText (address : Address) :
    ofKeyHash address.toText = (address.forgeKeyHash.mapError .address).map ofBytes := by
  rw [ofKeyHash, address.ofText_toText, Outcome.mapError_ok, Outcome.ok_bind]
  rfl

/-- Exactly the texts that are no addresses fail as keys of both types, for the same reason. -/
theorem exists_address_fault_iff {text : String} :
    (∃ fault, ofAddress text = .error (.address fault) ∧ ofKeyHash text = .error (.address fault)) ↔
      ∀ address : Address, text ≠ address.toText := by
  constructor
  · rintro ⟨fault, haddress, -⟩ address rfl
    rw [ofAddress_toText] at haddress
    cases haddress
  · intro h
    cases htext : Address.ofText text with
    | ok address => exact absurd (Address.ofText_eq_ok_iff.mp htext) (h address)
    | error fault => exact ⟨fault, by rw [ofAddress, htext]; rfl, by rw [ofKeyHash, htext]; rfl⟩

/-- Keys of the types `int`, `nat`, `string` and `bytes` have the identifiers of their literals. An
`address` has that of the bytes of its layout. A `key_hash` has that of the twenty-one bytes of its
layout if a key controls the account, and none if the account is a contract. A text that is no
address is a key of neither of these types. -/
theorem typed_keys_agree :
    (∀ n, Names (.int n) (ofInt n)) ∧ (∀ n : Nat, ofNat n = ofInt n) ∧
      (∀ text, Names (.string text) (ofString text)) ∧
      (∀ bytes, Names (.bytes bytes) (ofBytes bytes)) ∧
      (∀ address : Address, ∃ identifier, ofAddress address.toText = .ok identifier ∧
        Names (.bytes address.forgeContract) identifier) ∧
      (∀ curve hash, ∃ bytes identifier,
        (Address.implicit curve hash).forgeKeyHash = .ok bytes ∧ bytes.length = 21 ∧
          ofKeyHash (Address.implicit curve hash).toText = .ok identifier ∧
          Names (.bytes bytes) identifier) ∧
      (∀ hash, ofKeyHash (Address.originated hash).toText =
        .error (.address (.notImplicit (Address.originated hash).toText))) ∧
      ∀ text, (∃ fault, ofAddress text = .error (.address fault) ∧
        ofKeyHash text = .error (.address fault)) ↔ ∀ address : Address, text ≠ address.toText := by
  refine ⟨names_int, fun _ => rfl, names_string, names_bytes,
    fun address => ⟨_, ofAddress_toText address, names_bytes _⟩, fun curve hash => ?_,
    fun hash => ofKeyHash_toText (.originated hash), fun _ => exists_address_fault_iff⟩
  have hlength : (curve.tag :: hash.toBytes).length = 21 := by
    rw [List.length_cons, hash.length_toBytes]
  exact ⟨_, _, rfl, hlength, ofKeyHash_toText (.implicit curve hash), names_bytes _⟩

end TezosWallet.Expression
