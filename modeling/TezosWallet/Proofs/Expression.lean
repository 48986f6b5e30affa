import TezosWallet.Proofs.Base58.Check
import TezosWallet.Proofs.Micheline.Unique
import TezosWallet.Expression

/-!
# Packed trees and their identifiers

The binary form of a tree ends by itself and tells the tree, up to how its annotations are split,
and packing only puts one byte in front. Keys of a big map that are not alike therefore share an
identifier only if their packed forms are two byte strings with one digest.

## Main definitions

* `Blake2b.Collide` — two byte strings with one digest.

## Main results

* `Micheline.encode_append_eq_iff` — the binary form in front of anything.
* `Micheline.pack_eq_iff` — trees with the same packed form.
* `Expression.ofPacked_eq_iff` — packed forms with the same identifier.
* `Micheline.binary_form_tells_tree` — all of them at once.
-/

namespace TezosWallet

/-- Two byte strings are different and have one digest. -/
def Blake2b.Collide (p q : Bytes) : Prop := p ≠ q ∧ digest256 p = digest256 q

/-- Packed forms have the same identifier exactly if they are equal or collide. -/
theorem Expression.ofPacked_eq_iff {p q : Bytes} :
    ofPacked p = ofPacked q ↔ p = q ∨ Blake2b.Collide p q := by
  rw [ofPacked, ofPacked, Base58Check.encode_inj, ← FixedBytes.ext_iff, Blake2b.Collide]
  constructor
  · intro hdigest
    by_cases hpq : p = q
    · exact .inl hpq
    · exact .inr ⟨hpq, hdigest⟩
  · rintro (rfl | ⟨-, hdigest⟩)
    · rfl
    · exact hdigest

namespace Micheline

variable {m n : Micheline} {x y : Bytes}

/-- The packed form of a tree is a byte in front of its binary form. -/
theorem pack_eq_of_encode_eq (hx : m.encode = .ok x) : m.pack = .ok (packTag :: x) := by
  have hlayout : m.layout = .ok x := by rw [← encode_eq_layout, hx]
  have hpack := ((Writer.denotes_put [packTag]).andThen (write_denotes m)).run_eq
  rw [pack, hpack, hlayout]
  rfl

theorem encode_eq_of_alike (h : m.Alike n) : m.encode = n.encode := by
  rw [encode_eq_layout, encode_eq_layout, layout_eq_of_alike h]

section Encodable

variable (hx : m.encode = .ok x) (hy : n.encode = .ok y) (hm : m.Framable) (hn : n.Framable)
include hx hy hm hn

/-- Bytes begin with the binary forms of two trees exactly if the trees are alike, and then go on
alike. -/
theorem encode_append_eq_iff {s t : Bytes} : x ++ s = y ++ t ↔ s = t ∧ m.Alike n := by
  constructor
  · intro h
    rw [encode_eq_layout] at hx hy
    exact (layout_unique m n hm hn hx hy h).symm
  · rintro ⟨rfl, halike⟩
    have hsame := encode_eq_of_alike halike
    rw [hx, hy, Except.ok.injEq] at hsame
    rw [hsame]

theorem encode_eq_iff : x = y ↔ m.Alike n := by
  have h := encode_append_eq_iff hx hy hm hn (s := []) (t := [])
  simpa using h

/-- Trees have the same packed form exactly if they are alike. -/
theorem pack_eq_iff : m.pack = n.pack ↔ m.Alike n := by
  rw [pack_eq_of_encode_eq hx, pack_eq_of_encode_eq hy, Except.ok.injEq, List.cons_inj_right,
    encode_eq_iff hx hy hm hn]

/-- The binary form of a tree ends by itself and tells the tree up to likeness, and so does the
packed form. Keys have the same identifier exactly if they are alike or their packed forms
collide. -/
theorem binary_form_tells_tree :
    (∀ s t, x ++ s = y ++ t ↔ s = t ∧ m.Alike n) ∧ (m.pack = n.pack ↔ m.Alike n) ∧
      ∃ p q, m.pack = .ok p ∧ n.pack = .ok q ∧
        (Expression.ofPacked p = Expression.ofPacked q ↔ m.Alike n ∨ Blake2b.Collide p q) := by
  refine ⟨fun s t => encode_append_eq_iff hx hy hm hn, pack_eq_iff hx hy hm hn, _, _,
    pack_eq_of_encode_eq hx, pack_eq_of_encode_eq hy, ?_⟩
  rw [Expression.ofPacked_eq_iff, List.cons_inj_right, encode_eq_iff hx hy hm hn]

end Encodable

/-- Three arguments, the first of which carries annotations. -/
def annotatedArgs (annots : List String) : List Micheline :=
  [.prim "Unit" [] annots, .int (-1), .seq [.bytes [0xff], .string "é"]]

theorem framable_annotatedArgs {annots : List String}
    (hannots : annots ∈ [["%a", "%b"], ["%a %b"]]) :
    (prim "Pair" (annotatedArgs annots) annots).Framable := by
  have hjoined : (joinAnnots annots).length < 2 ^ 32 := by
    revert annots
    decide
  have hunit : (prim "Unit" [] annots).Framable := ⟨trivial, fun h => by simp at h, hjoined⟩
  have hlist : FramableAll [.bytes [0xff], .string "é"] :=
    ⟨show [(0xff : UInt8)].length < 2 ^ 32 by decide,
      show (Bytes.utf8 "é").length < 2 ^ 32 by decide, trivial⟩
  have hitems : (writeAll [.bytes [0xff], .string "é"]).Fits :=
    fits_of_layoutAll_eq rfl (by decide)
  have hargs : (writeAll (annotatedArgs annots)).Fits := by
    simp only [List.mem_cons, List.not_mem_nil, or_false] at hannots
    rcases hannots with rfl | rfl
    · exact fits_of_layoutAll_eq rfl (by decide)
    · exact fits_of_layoutAll_eq rfl (by decide)
  exact ⟨⟨hunit, trivial, ⟨hlist, hitems⟩, trivial⟩, fun _ => hargs, hjoined⟩

/-- Whether a text is one annotation or two is not seen, neither without a length in front of the
arguments nor with one. -/
theorem binary_form_tells_tree_annotatedArgs :
    let m := prim "Pair" (annotatedArgs ["%a", "%b"]) ["%a", "%b"]
    let n := prim "Pair" (annotatedArgs ["%a %b"]) ["%a %b"]
    ∃ x y, m.encode = .ok x ∧ n.encode = .ok y ∧ m.Framable ∧ n.Framable ∧
      (∀ s t, x ++ s = y ++ t ↔ s = t ∧ m.Alike n) := by
  intro m n
  have hx : m.encode = .ok _ := (encode_eq_layout m).trans rfl
  have hy : n.encode = .ok _ := (encode_eq_layout n).trans rfl
  have hm : m.Framable := framable_annotatedArgs (by simp)
  have hn : n.Framable := framable_annotatedArgs (by simp)
  exact ⟨_, _, hx, hy, hm, hn, (binary_form_tells_tree hx hy hm hn).1⟩

end Micheline

end TezosWallet
