import TezosWallet.Proofs.Operation.Atomic
import TezosWallet.Proofs.Operation.Delimited

/-!
# Contents that cannot be forged

Forging one content fails for one of few reasons: an account is a contract, or one of the wrong
curve, where it must not be, the name of an entrypoint has the wrong length, or a primitive of a
tree has no opcode. Everything that is wrong with a content is listed in the order of its fields
in the forged form, and in the order of writing inside a tree. Forging fails exactly if the list is
not empty, and reports what stands first in it.

## Main definitions

* `Micheline.primNames` — the primitives of a tree in the order of writing.
* `Content.faults` — everything that is wrong with a content.

## Main results

* `Micheline.fault?_layout` — a tree fails by its first primitive without opcode.
* `Content.fault?_layout` — a content fails by what is first wrong with it.
* `Content.forging_fails_first` — when forging fails, and with which error.
-/

namespace TezosWallet

/-! ### Trees -/

namespace Micheline

mutual

/-- The names of the primitives in a tree, each in front of those in its arguments. -/
def primNames : Micheline → List String
  | int _ | string _ | bytes _ => []
  | seq items => primNamesAll items
  | prim name args _ => name :: primNamesAll args

/-- The names of the primitives in trees, one tree after the other. -/
def primNamesAll : List Micheline → List String
  | [] => []
  | item :: rest => primNames item ++ primNamesAll rest

end

theorem opcode?_eq_none_iff {name : String} : opcode? name = none ↔ name ∉ primitives := by
  rw [opcode?, Option.map_eq_none_iff, List.idxOf?_eq_none_iff]

/-- The names that are no primitives. -/
def unknown (names : List String) : List String := names.filter (· ∉ primitives)

theorem unknown_cons (name : String) (names : List String) :
    unknown (name :: names) =
      if opcode? name = none then name :: unknown names else unknown names := by
  simp only [unknown, List.filter_cons, opcode?_eq_none_iff, decide_eq_true_eq]

theorem unknown_append (xs ys : List String) : unknown (xs ++ ys) = unknown xs ++ unknown ys :=
  List.filter_append ..

mutual

/-- The layout of a tree fails by the first of its primitives without opcode. -/
theorem fault?_layout : (node : Micheline) →
    node.layout.fault? = ((unknown node.primNames).map .unknownPrimitive).head?
  | int _ | string _ | bytes _ => rfl
  | seq items => by
    rw [layout, primNames]
    simpa using fault?_layoutAll items
  | prim name args annots => by
    have hargs := fault?_layoutAll args
    rw [layout, primNames, unknown_cons]
    cases opcode? name with
    | none => rfl
    | some code => by_cases harity : args.length ≤ 2 <;> simpa [harity] using hargs

theorem fault?_layoutAll : (items : List Micheline) →
    (layoutAll items).fault? = ((unknown (primNamesAll items)).map .unknownPrimitive).head?
  | [] => rfl
  | item :: rest => by
    rw [layoutAll, primNamesAll, unknown_append, List.map_append, List.head?_append,
      Layout.fault?_append, fault?_layout item, fault?_layoutAll rest]

end

end Micheline

/-! ### Contents -/

namespace Content

/-- The account that is activated. -/
def activated? : Content → Option Address
  | activateAccount pkh _ => some pkh
  | _ => none

/-- The account that a content comes from. -/
def source? : Content → Option Address
  | proposals source .. | ballot source .. => some source
  | reveal manager .. | transaction manager .. | origination manager .. | delegation manager .. =>
    some manager.source
  | _ => none

/-- The delegate that is named. -/
def delegate? : Content → Option Address
  | origination _ _ delegate _ | delegation _ delegate => delegate
  | _ => none

/-- The entrypoint that is called. -/
def entrypoint? : Content → Option String
  | transaction _ _ _ parameters => parameters.map (·.entrypoint)
  | _ => none

/-- The trees of a content in the order of writing. -/
def trees : Content → List Micheline
  | transaction _ _ _ parameters => (parameters.map (·.value)).toList
  | origination _ _ _ script => [script.code, script.storage]
  | _ => []

/-- A name that has no byte of its own and does not fit behind its length. -/
def BadEntrypoint (name : String) : Prop :=
  name ∉ ["default", "root", "do", "set_delegate", "remove_delegate"] ∧
    ((Bytes.utf8 name).length = 0 ∨ 31 < (Bytes.utf8 name).length)

instance : DecidablePred BadEntrypoint := fun _ => inferInstanceAs (Decidable (_ ∧ _))

/-- An account that is activated must be one of an Ed25519 key. -/
def activationFaults (kind : Kind) : Option Address → List ForgeError
  | none | some (.implicit .ed25519 _) => []
  | some _ => [.invalidField kind "pkh" .notTz1]

/-- Sources and delegates must not be contracts. -/
def contractFaults (kind : Kind) (field : String) : Option Address → List ForgeError
  | some (.originated hash) =>
    [.invalidField kind field (.address (.notImplicit (Address.originated hash).toText))]
  | _ => []

theorem activationFaults_none (kind : Kind) : activationFaults kind none = [] := rfl

theorem contractFaults_none (kind : Kind) (field : String) :
    contractFaults kind field none = [] := rfl

/-- Entrypoints must have a byte or a length. -/
def entrypointFaults (kind : Kind) (name : Option String) : List ForgeError :=
  match name with
  | some name =>
    if BadEntrypoint name then [.invalidField kind "entrypoint" (.entrypointLength 31)] else []
  | none => []

theorem entrypointFaults_none (kind : Kind) : entrypointFaults kind none = [] := rfl

/-- Primitives must have an opcode. -/
def treeFaults (node : Micheline) : List ForgeError :=
  (Micheline.unknown node.primNames).map fun name => .micheline (.unknownPrimitive name)

/-- Everything that is wrong with a content, in the order of writing. -/
def faults (content : Content) : List ForgeError :=
  activationFaults content.kind content.activated? ++
    (contractFaults content.kind "source" content.source? ++
      (contractFaults content.kind "delegate" content.delegate? ++
        (entrypointFaults content.kind content.entrypoint? ++ content.trees.flatMap treeFaults)))

/-! ### Layouts -/

variable {kind : Kind} {field name : String}

theorem fault?_layoutTz1Hash (account : Address) :
    (layoutTz1Hash kind "pkh" account).fault? = (activationFaults kind (some account)).head? := by
  match account with
  | .implicit .ed25519 _ | .implicit .secp256k1 _ | .implicit .p256 _ | .originated _ => rfl

theorem fault?_layoutKeyHash (account : Address) :
    (layoutKeyHash kind field account).fault? =
      (contractFaults kind field (some account)).head? := by
  cases account <;> rfl

theorem fault?_layoutDelegate (account : Option Address) :
    (layoutDelegate kind account).fault? = (contractFaults kind "delegate" account).head? := by
  cases account with
  | none => rfl
  | some account => simp [layoutDelegate, fault?_layoutKeyHash]

theorem fault?_layoutManager (manager : ManagerFields) :
    (layoutManager kind manager).fault? =
      (contractFaults kind "source" (some manager.source)).head? := by
  simp [layoutManager, fault?_layoutKeyHash]

theorem entrypointTag?_eq_none_iff : entrypointTag? name = none ↔
    name ∉ ["default", "root", "do", "set_delegate", "remove_delegate"] := by
  unfold entrypointTag?
  split_ifs <;> simp_all

theorem fault?_layoutEntrypoint (name : String) :
    (layoutEntrypoint kind name).fault? = (entrypointFaults kind (some name)).head? := by
  rw [layoutEntrypoint, entrypointFaults]
  cases htag : entrypointTag? name with
  | some tag =>
    have hbad : ¬ BadEntrypoint name := fun h => by
      rw [entrypointTag?_eq_none_iff.mpr h.1] at htag
      cases htag
    rw [if_neg hbad]
    rfl
  | none =>
    have hbad : BadEntrypoint name ↔
        ¬ (0 < (Bytes.utf8 name).length ∧ (Bytes.utf8 name).length ≤ longestEntrypoint) := by
      have hlongest : longestEntrypoint = 31 := rfl
      rw [BadEntrypoint, and_iff_right (entrypointTag?_eq_none_iff.mp htag)]
      omega
    by_cases hfits : 0 < (Bytes.utf8 name).length ∧ (Bytes.utf8 name).length ≤ longestEntrypoint
    · rw [if_neg fun h => hbad.mp h hfits]
      simp only [if_pos hfits]
      rfl
    · rw [if_pos (hbad.mpr hfits)]
      simp only [if_neg hfits]
      rfl

theorem fault?_layoutTree (node : Micheline) :
    (layoutTree node).fault? = (treeFaults node).head? := by
  rw [layoutTree, Layout.fault?_framed, Layout.fault?_mapError, Micheline.fault?_layout, treeFaults,
    List.head?_map, List.head?_map, Option.map_map]
  rfl

theorem fault?_layoutParameters (parameters : Option Parameters) :
    (layoutParameters kind parameters).fault? =
      (entrypointFaults kind (parameters.map (·.entrypoint)) ++
        (parameters.map (·.value)).toList.flatMap treeFaults).head? := by
  cases parameters with
  | none => rfl
  | some call =>
    simp [layoutParameters, fault?_layoutEntrypoint, fault?_layoutTree]

/-- A content has no layout because of what is first wrong with it. -/
theorem fault?_layout (content : Content) : content.layout.fault? = content.faults.head? := by
  rw [layout, Layout.fault?_append, Layout.fault?_ok, Option.none_or]
  cases content with
  | endorsement | seedNonceRevelation | doubleEndorsementEvidence | doubleBakingEvidence => rfl
  | activateAccount | proposals | ballot | reveal | transaction | origination | delegation =>
    simp [layoutFields, faults, activated?, source?, delegate?, entrypoint?, trees,
      activationFaults_none, contractFaults_none, entrypointFaults_none, fault?_layoutTz1Hash,
      fault?_layoutKeyHash, fault?_layoutManager, fault?_layoutDelegate, fault?_layoutParameters,
      fault?_layoutTree]

/-! ### When forging fails -/

theorem activationFaults_ne_nil_iff {account : Option Address} :
    activationFaults kind account ≠ [] ↔
      ∃ pkh, account = some pkh ∧ ∀ hash, pkh ≠ .implicit .ed25519 hash := by
  match account with
  | none => simp [activationFaults]
  | some (.implicit .ed25519 _) | some (.implicit .secp256k1 _) | some (.implicit .p256 _)
  | some (.originated _) => simp [activationFaults]

theorem contractFaults_ne_nil_iff {account : Option Address} :
    contractFaults kind field account ≠ [] ↔ ∃ hash, account = some (.originated hash) := by
  match account with
  | none | some (.implicit ..) | some (.originated _) => simp [contractFaults]

theorem entrypointFaults_ne_nil_iff {called : Option String} :
    entrypointFaults kind called ≠ [] ↔ ∃ name, called = some name ∧ BadEntrypoint name := by
  cases called <;> simp [entrypointFaults]

theorem treeFaults_ne_nil_iff {node : Micheline} :
    treeFaults node ≠ [] ↔ ∃ name ∈ node.primNames, name ∉ Micheline.primitives := by
  simp [treeFaults, Micheline.unknown]

/-- Forging one content fails exactly if it activates an account that is not one of an Ed25519 key,
comes from a contract, names a contract as delegate, calls an entrypoint whose name has neither a
byte of its own nor one to thirty-one bytes, or has a tree with a primitive, at any depth, that
has no opcode. The error is the first one in this order. -/
theorem forging_fails_first (content : Content) :
    ((∃ fault, forgeAll [content] = .error fault) ↔
      (∃ pkh, content.activated? = some pkh ∧ ∀ hash, pkh ≠ .implicit .ed25519 hash) ∨
      (∃ hash, content.source? = some (.originated hash)) ∨
      (∃ hash, content.delegate? = some (.originated hash)) ∨
      (∃ name, content.entrypoint? = some name ∧ BadEntrypoint name) ∨
      ∃ tree ∈ content.trees, ∃ name ∈ tree.primNames, name ∉ Micheline.primitives) ∧
    ∀ fault, forgeAll [content] = .error fault ↔ content.faults.head? = some fault := by
  have hfault (fault : ForgeError) :
      forgeAll [content] = .error fault ↔ content.faults.head? = some fault := by
    rw [forgeAll_singleton, ← fault?_layout, Layout.fault?_eq_some_iff]
  refine ⟨?_, hfault⟩
  have hfails : (∃ fault, forgeAll [content] = .error fault) ↔ content.faults ≠ [] := by
    simp only [hfault, ← Option.isSome_iff_exists, List.isSome_head?]
  have htrees : content.trees.flatMap treeFaults ≠ [] ↔
      ∃ tree ∈ content.trees, treeFaults tree ≠ [] := by
    simp
  rw [hfails, faults]
  simp only [ne_eq, List.append_eq_nil_iff, not_and_or] at htrees ⊢
  simp only [htrees, ← ne_eq, activationFaults_ne_nil_iff, contractFaults_ne_nil_iff,
    entrypointFaults_ne_nil_iff, treeFaults_ne_nil_iff]

end Content

end TezosWallet
