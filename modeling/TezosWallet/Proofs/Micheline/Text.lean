import TezosWallet.Proofs.Json.Text
import TezosWallet.Proofs.Micheline.Json
import TezosWallet.Micheline.Binary

/-!
# Trees are read back from their JSON texts

The JSON value of a tree holds no number: integers are written as texts. So the one-line form of
the value is read back as the value, as deep as JSON may nest, and the value as the tree.

## Main results

* `Micheline.numberless_toJson` — there is no number in the JSON value of a tree.
* `Micheline.parse_render` — a tree is read from its JSON text.
* `Micheline.json_restores_tree` — values and texts, and the binary form of what is read.
-/

namespace TezosWallet.Micheline

open Json

mutual

/-- There is no number in the JSON value of a tree. -/
theorem numberless_toJson : (node : Micheline) → node.toJson.Numberless
  | int _ | string _ | bytes _ => numberless_object (by simp [Numberless])
  | seq items => numberlessItems_toJsonAll items
  | prim name args annots => by
    have hargs : (Json.array (toJsonAll args)).Numberless := numberlessItems_toJsonAll args
    have hannots : (Json.array (annots.map .string)).Numberless :=
      numberlessItems_iff.mpr (by simp [Numberless])
    refine numberless_object fun entry hentry => ?_
    simp only [List.mem_append, List.mem_singleton, List.mem_ite_nil_left] at hentry
    obtain (rfl | ⟨-, rfl⟩) | ⟨-, rfl⟩ := hentry
    · trivial
    · exact hargs
    · exact hannots

/-- There is no number in the JSON values of trees. -/
theorem numberlessItems_toJsonAll : (items : List Micheline) → NumberlessItems (toJsonAll items)
  | [] => trivial
  | item :: rest => ⟨numberless_toJson item, numberlessItems_toJsonAll rest⟩

end

/-- A tree is read from its JSON text if the text does not nest too deep. -/
theorem parse_render {node : Micheline} (hdepth : node.toJson.nesting ≤ 127) :
    parse node.toJson.render = .ok node := by
  rw [parse, parse?_render (numberless_toJson node) hdepth]
  exact ofJson_toJson node

/-- Every tree is read from its JSON value, and from its JSON text if arrays and objects nest at
most 127 deep there. So what is read has the binary form of the tree, or fails as it does. -/
theorem json_restores_tree (node : Micheline) :
    ofJson node.toJson = .ok node ∧
      (ofJson node.toJson >>= encode) = node.encode ∧
      (node.toJson.nesting ≤ 127 →
        parse node.toJson.render = .ok node ∧
          (parse node.toJson.render >>= encode) = node.encode) := by
  refine ⟨ofJson_toJson node, by rw [ofJson_toJson, Outcome.ok_bind], fun hdepth => ?_⟩
  exact ⟨parse_render hdepth, by rw [parse_render hdepth, Outcome.ok_bind]⟩

/-- An annotated primitive without opcode inside as many sequences as may be. -/
def deepestTree : Micheline :=
  Nat.repeat (fun node => .seq [node]) 125 (.prim "\"π\\" [] ["%a\n", "\x01😀"])

/-- The deepest text that is read holds a mark, a backslash, control characters and characters
beyond ASCII, and the tree has no binary form. -/
theorem json_restores_tree_deepestTree :
    deepestTree.toJson.nesting = 127 ∧ parse deepestTree.toJson.render = .ok deepestTree ∧
      (parse deepestTree.toJson.render >>= encode) = deepestTree.encode := by
  have hdepth : deepestTree.toJson.nesting = 127 := by decide +kernel
  exact ⟨hdepth, (json_restores_tree deepestTree).2.2 hdepth.le⟩

end TezosWallet.Micheline
