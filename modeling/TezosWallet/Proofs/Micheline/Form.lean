import TezosWallet.Proofs.Micheline.Unique
import TezosWallet.Proofs.Zarith.Decode

/-!
# The documented form of a tree

The table of tags says what a node looks like in front of what its parts look like, and nothing of
how this is written. It is stated here as a relation between trees and byte strings, with one
constructor for each kind of row. A length is four bytes that give the number of bytes of the body
behind them; where a body is too long for that, they keep what is left of its number.

The writer reserves the place of a length, writes the body and then goes back. Whatever the
nesting and whatever stands in the buffer, it ends with the form of the tree behind the buffer.

## Main definitions

* `LengthFirst` — a body behind its length.
* `Micheline.HasForm` — a tree and its bytes after the table of tags.

## Main results

* `Micheline.hasForm_iff` — the layout of a tree is its form.
* `Micheline.write_appends_form` — a tree is encoded, and appended to any buffer, as its form.
-/

namespace TezosWallet

/-- A body behind its length: four bytes, most significant first. A number of bytes that they
cannot hold is cut to its low end. -/
inductive LengthFirst (body : Bytes) : Bytes → Prop
  | intro {length : Bytes} (hsize : length.length = 4)
      (hexact : body.length < 2 ^ 32 → length.toNatBE = body.length)
      (hcut : 2 ^ 32 ≤ body.length → length.toNatBE = body.length % 2 ^ 32) :
      LengthFirst body (length ++ body)

/-- The one byte string that has a body behind its length is the framed body. -/
theorem lengthFirst_iff {body bytes : Bytes} : LengthFirst body bytes ↔ bytes = frame body := by
  constructor
  · rintro @⟨length, hsize, hexact, hcut⟩
    have hnumber : length.toNatBE = body.length % 2 ^ 32 := by
      rcases lt_or_ge body.length (2 ^ 32) with hlt | hle
      · rw [hexact hlt, Nat.mod_eq_of_lt hlt]
      · exact hcut hle
    have hlength : length = frameLength body.length := Bytes.eq_ofNatBE_iff.mpr ⟨hsize, hnumber⟩
    rw [hlength, frame]
  · rintro rfl
    have hnumber : (frameLength body.length).toNatBE = body.length % 2 ^ 32 :=
      Bytes.toNatBE_ofNatBE ..
    exact ⟨length_frameLength _, fun hlt => by rw [hnumber, Nat.mod_eq_of_lt hlt], fun _ => hnumber⟩

namespace Micheline

mutual

/-- A tree and the bytes that the table of tags gives it. -/
inductive HasForm : Micheline → Bytes → Prop
  /-- The shortest bytes whose bits add up to the integer. -/
  | int {value : Int} {digits : Bytes} (hdigits : Zarith.WritesInteger value digits) :
      HasForm (.int value) (0x00 :: digits)
  | string {value : String} {text : Bytes} (htext : LengthFirst (Bytes.utf8 value) text) :
      HasForm (.string value) (0x01 :: text)
  | seq {items : List Micheline} {nodes body : Bytes} (hitems : HaveForms items nodes)
      (hbody : LengthFirst nodes body) : HasForm (.seq items) (0x02 :: body)
  /-- The tags `03`, `05` and `07`, for none, one and two arguments. -/
  | plain {name : String} {args : List Micheline} {tag code : UInt8} {nodes : Bytes}
      (hcode : opcode? name = some code) (harity : args.length ≤ 2)
      (htag : tag.toNat = 3 + 2 * args.length) (hargs : HaveForms args nodes) :
      HasForm (.prim name args []) (tag :: code :: nodes)
  /-- The tags `04`, `06` and `08`. -/
  | annotated {name : String} {args : List Micheline} {annots : List String} {tag code : UInt8}
      {nodes text : Bytes} (hcode : opcode? name = some code) (harity : args.length ≤ 2)
      (hannots : annots ≠ []) (htag : tag.toNat = 3 + 2 * args.length + 1)
      (hargs : HaveForms args nodes)
      (htext : LengthFirst (Bytes.utf8 (String.intercalate " " annots)) text) :
      HasForm (.prim name args annots) (tag :: code :: (nodes ++ text))
  /-- From three arguments on the annotations are there even if there are none. -/
  | wide {name : String} {args : List Micheline} {annots : List String} {code : UInt8}
      {nodes body text : Bytes} (hcode : opcode? name = some code) (harity : 3 ≤ args.length)
      (hargs : HaveForms args nodes) (hbody : LengthFirst nodes body)
      (htext : LengthFirst (Bytes.utf8 (String.intercalate " " annots)) text) :
      HasForm (.prim name args annots) (0x09 :: code :: (body ++ text))
  | bytes {value text : Bytes} (htext : LengthFirst value text) :
      HasForm (.bytes value) (0x0a :: text)

/-- Trees and their bytes, one after the other. -/
inductive HaveForms : List Micheline → Bytes → Prop
  | nil : HaveForms [] []
  | cons {item : Micheline} {rest : List Micheline} {first others : Bytes}
      (hitem : HasForm item first) (hrest : HaveForms rest others) :
      HaveForms (item :: rest) (first ++ others)

end

/-- The number of a tag tells how many arguments follow, and whether annotations do. -/
theorem toNat_nodeTag_narrow (name : String) {args : List Micheline} (annots : List String)
    (harity : args.length ≤ 2) :
    (prim name args annots).nodeTag.toNat =
      3 + 2 * args.length + if annots = [] then 0 else 1 := by
  rw [nodeTag, if_pos harity, toNat_primTag harity]
  cases annots <;> simp

mutual

/-- The form of a tree is its layout. -/
theorem layout_of_hasForm {node : Micheline} {bytes : Bytes} :
    HasForm node bytes → node.layout = .ok bytes
  | .int hdigits => by rw [layout, Zarith.writesInteger_iff.mp hdigits, intTag]
  | .string htext => by rw [layout, lengthFirst_iff.mp htext, stringTag]
  | .bytes htext => by rw [layout, lengthFirst_iff.mp htext, bytesTag]
  | .seq hitems hbody => by
    rw [layout, layoutAll_of_haveForms hitems, lengthFirst_iff.mp hbody]
    rfl
  | @HasForm.plain name args tag code nodes hcode harity htag hargs => by
    refine layout_prim_eq_ok_iff.mpr ⟨code, nodes, hcode, layoutAll_of_haveForms hargs, ?_⟩
    have hnode : (prim name args []).nodeTag = tag :=
      UInt8.toNat_inj.mp ((toNat_nodeTag_narrow name [] harity).trans htag.symm)
    rw [hnode, if_pos harity, List.isEmpty_nil, if_pos rfl, List.append_nil]
  | @HasForm.annotated name args annots tag code nodes text hcode harity hannots htag hargs
      htext => by
    refine layout_prim_eq_ok_iff.mpr ⟨code, nodes, hcode, layoutAll_of_haveForms hargs, ?_⟩
    have hnumber := toNat_nodeTag_narrow name annots harity
    rw [if_neg hannots] at hnumber
    have hnode : (prim name args annots).nodeTag = tag :=
      UInt8.toNat_inj.mp (hnumber.trans htag.symm)
    rw [hnode, if_pos harity, if_neg (mt List.isEmpty_iff.mp hannots), lengthFirst_iff.mp htext,
      joinAnnots]
  | .wide hcode harity hargs hbody htext => by
    refine layout_prim_eq_ok_iff.mpr ⟨_, _, hcode, layoutAll_of_haveForms hargs, ?_⟩
    have hwide := Nat.not_le.mpr harity
    rw [nodeTag, if_neg hwide, if_neg hwide, lengthFirst_iff.mp hbody, lengthFirst_iff.mp htext,
      wideTag, joinAnnots]

/-- The forms of trees are their layouts. -/
theorem layoutAll_of_haveForms {items : List Micheline} {bytes : Bytes} :
    HaveForms items bytes → layoutAll items = .ok bytes
  | .nil => rfl
  | .cons hitem hrest => by
    rw [layoutAll, layout_of_hasForm hitem, layoutAll_of_haveForms hrest, Layout.ok_append_ok]

end

mutual

/-- The layout of a tree is its form. -/
theorem hasForm_of_layout : (node : Micheline) → {bytes : Bytes} → node.layout = .ok bytes →
    HasForm node bytes
  | .int _, _, rfl => .int (Zarith.writesInteger_iff.mpr rfl)
  | .string _, _, rfl => .string (lengthFirst_iff.mpr rfl)
  | .bytes _, _, rfl => .bytes (lengthFirst_iff.mpr rfl)
  | .seq items, _, h => by
    obtain ⟨_, ⟨⟩, _, hframed, rfl⟩ := Layout.append_eq_ok_iff.mp h
    obtain ⟨nodes, hnodes, rfl⟩ := Layout.framed_eq_ok_iff.mp hframed
    exact .seq (haveForms_of_layoutAll items hnodes) (lengthFirst_iff.mpr rfl)
  | .prim name args annots, _, h => by
    obtain ⟨code, nodes, hcode, hnodes, rfl⟩ := layout_prim_eq_ok_iff.mp h
    have hargs := haveForms_of_layoutAll args hnodes
    by_cases harity : args.length ≤ 2
    · have htag := toNat_nodeTag_narrow name annots harity
      rw [if_pos harity]
      by_cases hannots : annots = []
      · subst hannots
        rw [List.isEmpty_nil, if_pos rfl, List.append_nil]
        exact .plain hcode harity htag hargs
      · rw [if_neg (mt List.isEmpty_iff.mp hannots)]
        rw [if_neg hannots] at htag
        exact .annotated hcode harity hannots htag hargs (lengthFirst_iff.mpr rfl)
    · rw [nodeTag, if_neg harity, if_neg harity]
      exact .wide hcode (Nat.not_le.mp harity) hargs (lengthFirst_iff.mpr rfl)
        (lengthFirst_iff.mpr rfl)

/-- The layouts of trees are their forms. -/
theorem haveForms_of_layoutAll : (items : List Micheline) → {bytes : Bytes} →
    layoutAll items = .ok bytes → HaveForms items bytes
  | [], _, rfl => .nil
  | item :: rest, _, h => by
    obtain ⟨first, hfirst, others, hothers, rfl⟩ := Layout.append_eq_ok_iff.mp h
    exact .cons (hasForm_of_layout item hfirst) (haveForms_of_layoutAll rest hothers)

end

theorem hasForm_iff {node : Micheline} {bytes : Bytes} :
    HasForm node bytes ↔ node.layout = .ok bytes :=
  ⟨layout_of_hasForm, hasForm_of_layout node⟩

/-- A tree is encoded as the bytes that the table gives it, and whatever a buffer holds, writing
the tree succeeds exactly by appending these bytes. -/
theorem write_appends_form (node : Micheline) :
    (∀ bytes, node.encode = .ok bytes ↔ HasForm node bytes) ∧
      ∀ buffer written : Buffer, node.write buffer = (.ok (), written) ↔
        ∃ bytes, HasForm node bytes ∧ written = buffer ++ bytes := by
  refine ⟨fun bytes => by rw [encode_eq_layout, hasForm_iff], fun buffer written => ?_⟩
  have hwrite := write_denotes node
  simp only [hasForm_iff]
  cases hlayout : node.layout with
  | ok bytes =>
    rw [hlayout] at hwrite
    rw [hwrite buffer]
    simp [eq_comm]
  | error fault =>
    rw [hlayout] at hwrite
    obtain ⟨left, hleft⟩ := hwrite buffer
    simp [hleft]

/-- Three arguments stand behind one length, and the empty text of annotations behind another. -/
example : (prim "LAMBDA" [prim "unit" [] [], prim "unit" [] [], seq []] []).encode =
    .ok [0x09, 0x31, 0, 0, 0, 9, 0x03, 0x6c, 0x03, 0x6c, 0x02, 0, 0, 0, 0, 0, 0, 0, 0] := by
  rfl

end Micheline

end TezosWallet
