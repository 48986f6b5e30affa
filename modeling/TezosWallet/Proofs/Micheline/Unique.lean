import TezosWallet.Proofs.Micheline.Layout
import TezosWallet.Proofs.Zarith

/-!
# A tree's layout identifies the tree

Layouts of trees end by themselves: the tag tells the shape of a node, and each part of it either
has a fixed size, ends by itself or stands behind its length. Two trees in front of anything
therefore have the same bytes only if they are alike, which means equal up to how annotations are
split.

## Main definitions

* `Micheline.Alike` — equal up to the splitting of annotations.
* `Micheline.Framable` — no body is too long for the length in front of it.

## Main results

* `Micheline.layout_unique`, `Micheline.layout_eq_of_alike`.
-/

namespace TezosWallet

/-- Whatever a writer writes is short enough to stand behind its length. -/
def Writer.Fits {ε : Type} (writer : Writer ε) : Prop :=
  ∀ body, writer.run = .ok body → body.length < 2 ^ 32

namespace Micheline

mutual

/-- Equal up to the splitting of annotations: of each primitive only the joined annotations
count and, for at most two arguments, whether there are any. -/
inductive Alike : Micheline → Micheline → Prop
  | int (value : Int) : Alike (.int value) (.int value)
  | string (value : String) : Alike (.string value) (.string value)
  | bytes (value : Bytes) : Alike (.bytes value) (.bytes value)
  | seq {xs ys : List Micheline} (items : AlikeAll xs ys) : Alike (.seq xs) (.seq ys)
  | prim {name : String} {xs ys : List Micheline} {as bs : List String} (args : AlikeAll xs ys)
      (joined : String.intercalate " " as = String.intercalate " " bs)
      (marked : xs.length ≤ 2 → (as = [] ↔ bs = [])) : Alike (.prim name xs as) (.prim name ys bs)

/-- Trees that are alike one by one. -/
inductive AlikeAll : List Micheline → List Micheline → Prop
  | nil : AlikeAll [] []
  | cons {x y : Micheline} {xs ys : List Micheline} (head : Alike x y) (tail : AlikeAll xs ys) :
    AlikeAll (x :: xs) (y :: ys)

end

mutual

/-- No text, byte string, sequence, list of three or more arguments or annotation text of a tree
is too long for the length in front of it. -/
def Framable : Micheline → Prop
  | int _ => True
  | string value => (Bytes.utf8 value).length < 2 ^ 32
  | bytes value => value.length < 2 ^ 32
  | seq items => FramableAll items ∧ (writeAll items).Fits
  | prim _ args annots =>
    FramableAll args ∧ (2 < args.length → (writeAll args).Fits) ∧
      (joinAnnots annots).length < 2 ^ 32

/-- No tree of a list has a body that is too long. -/
def FramableAll : List Micheline → Prop
  | [] => True
  | item :: rest => Framable item ∧ FramableAll rest

end

/-! ### Tags -/

/-- The first byte of a tree's layout. -/
def nodeTag : Micheline → UInt8
  | int _ => intTag
  | string _ => stringTag
  | bytes _ => bytesTag
  | seq _ => seqTag
  | prim _ args annots => if args.length ≤ 2 then primTag args.length (!annots.isEmpty) else wideTag

/-- A primitive has a layout if it has an opcode and its arguments have layouts. -/
theorem layout_prim_eq_ok_iff {name : String} {args : List Micheline} {annots : List String}
    {bytes : Bytes} :
    (prim name args annots).layout = .ok bytes ↔
      ∃ code body, opcode? name = some code ∧ layoutAll args = .ok body ∧
        bytes = (prim name args annots).nodeTag :: code ::
          if args.length ≤ 2 then body ++ if annots.isEmpty then [] else frame (joinAnnots annots)
          else frame body ++ frame (joinAnnots annots) := by
  rw [layout, nodeTag]
  cases opcode? name with
  | none => simp
  | some code =>
    by_cases harity : args.length ≤ 2 <;>
      cases layoutAll args <;> simp [harity, eq_comm (a := bytes)]

theorem layout_eq_cons {node : Micheline} {bytes : Bytes} (h : node.layout = .ok bytes) :
    ∃ rest, bytes = node.nodeTag :: rest := by
  cases node with
  | int | string | bytes =>
    cases h
    exact ⟨_, rfl⟩
  | seq items =>
    obtain ⟨_, ⟨⟩, rest, -, rfl⟩ := Layout.append_eq_ok_iff.mp h
    exact ⟨rest, rfl⟩
  | prim name args annots =>
    obtain ⟨code, body, -, -, rfl⟩ := layout_prim_eq_ok_iff.mp h
    exact ⟨_, rfl⟩

theorem toNat_primTag {arity : Nat} (harity : arity ≤ 2) (annotated : Bool) :
    (primTag arity annotated).toNat = 3 + 2 * arity + annotated.toNat := by
  rw [primTag, Bytes.toNat_byte] <;> cases annotated <;> simp <;> omega

/-- The tag of a primitive tells how many arguments it has, up to three, and whether it is
annotated. -/
theorem primTag_inj {m n : Nat} (hm : m ≤ 2) (hn : n ≤ 2) {a b : Bool} :
    primTag m a = primTag n b ↔ m = n ∧ a = b := by
  rw [← UInt8.toNat_inj, toNat_primTag hm, toNat_primTag hn]
  constructor
  · intro h
    cases a <;> cases b <;> simp at h ⊢ <;> omega
  · rintro ⟨rfl, rfl⟩
    rfl

theorem primTag_ne_wideTag {arity : Nat} (harity : arity ≤ 2) (annotated : Bool) :
    primTag arity annotated ≠ wideTag := by
  rw [ne_eq, ← UInt8.toNat_inj, toNat_primTag harity]
  cases annotated <;> simp [wideTag] <;> omega

theorem toNat_nodeTag_prim (name : String) (args : List Micheline) (annots : List String) :
    3 ≤ (prim name args annots).nodeTag.toNat ∧ (prim name args annots).nodeTag.toNat ≤ 9 := by
  rw [nodeTag]
  split
  · next harity =>
    rw [toNat_primTag harity]
    cases annots.isEmpty <;> simp <;> omega
  · decide

/-- Two nodes of the same form; primitives also agree on the number of arguments and on being
annotated, as far as their tags tell. -/
inductive SameForm : Micheline → Micheline → Prop
  | int (a b : Int) : SameForm (.int a) (.int b)
  | string (a b : String) : SameForm (.string a) (.string b)
  | bytes (a b : Bytes) : SameForm (.bytes a) (.bytes b)
  | seq (xs ys : List Micheline) : SameForm (.seq xs) (.seq ys)
  | narrow {f g : String} {xs ys : List Micheline} {as bs : List String} (hxs : xs.length ≤ 2)
      (hlength : xs.length = ys.length) (hannots : as.isEmpty = bs.isEmpty) :
      SameForm (.prim f xs as) (.prim g ys bs)
  | wide {f g : String} {xs ys : List Micheline} {as bs : List String} (hxs : ¬ xs.length ≤ 2)
      (hys : ¬ ys.length ≤ 2) : SameForm (.prim f xs as) (.prim g ys bs)

theorem nodeTag_prim_ne {name : String} {args : List Micheline} {annots : List String}
    {tag : UInt8} (htag : tag.toNat < 3 ∨ 9 < tag.toNat) :
    (prim name args annots).nodeTag ≠ tag := by
  rintro rfl
  have := toNat_nodeTag_prim name args annots
  omega

/-- The tag of a node tells its form. -/
theorem sameForm_of_nodeTag_eq {m n : Micheline} (h : m.nodeTag = n.nodeTag) : SameForm m n := by
  cases m with
  | prim f xs as =>
    cases n with
    | prim g ys bs =>
      rw [nodeTag, nodeTag] at h
      by_cases hxs : xs.length ≤ 2 <;> by_cases hys : ys.length ≤ 2 <;>
        simp only [hxs, hys, if_true, if_false] at h
      · obtain ⟨hlength, hannots⟩ := (primTag_inj hxs hys).mp h
        exact .narrow hxs hlength (by simpa using hannots)
      · exact absurd h (primTag_ne_wideTag hxs _)
      · exact absurd h.symm (primTag_ne_wideTag hys _)
      · exact .wide hxs hys
    | int | string | seq =>
      exact absurd h (nodeTag_prim_ne (.inl (by simp [nodeTag, intTag, stringTag, seqTag])))
    | bytes => exact absurd h (nodeTag_prim_ne (.inr (by simp [nodeTag, bytesTag])))
  | int a =>
    cases n with
    | int b => exact .int a b
    | prim => exact absurd h.symm (nodeTag_prim_ne (.inl (by simp [nodeTag, intTag])))
    | string | bytes | seq =>
      exact absurd h (by simp [nodeTag, intTag, stringTag, seqTag, bytesTag])
  | string a =>
    cases n with
    | string b => exact .string a b
    | prim => exact absurd h.symm (nodeTag_prim_ne (.inl (by simp [nodeTag, stringTag])))
    | int | bytes | seq => exact absurd h (by simp [nodeTag, intTag, stringTag, seqTag, bytesTag])
  | seq xs =>
    cases n with
    | seq ys => exact .seq xs ys
    | prim => exact absurd h.symm (nodeTag_prim_ne (.inl (by simp [nodeTag, seqTag])))
    | int | string | bytes =>
      exact absurd h (by simp [nodeTag, intTag, stringTag, seqTag, bytesTag])
  | bytes a =>
    cases n with
    | bytes b => exact .bytes a b
    | prim => exact absurd h.symm (nodeTag_prim_ne (.inr (by simp [nodeTag, bytesTag])))
    | int | string | seq => exact absurd h (by simp [nodeTag, intTag, stringTag, seqTag, bytesTag])

theorem opcode?_inj {f g : String} {code : UInt8} (hf : opcode? f = some code)
    (hg : opcode? g = some code) : f = g := by
  simp only [opcode?, Option.map_eq_some_iff] at hf hg
  obtain ⟨i, hi, rfl⟩ := hf
  obtain ⟨j, hj, hij⟩ := hg
  obtain ⟨hilt, rfl, -⟩ := List.idxOf?_eq_some_iff.mp hi
  obtain ⟨hjlt, rfl, -⟩ := List.idxOf?_eq_some_iff.mp hj
  have hcount : primitives.length = 157 := by decide +kernel
  have hindex : j = i := by
    rw [← UInt8.toNat_inj, Bytes.toNat_byte (by omega), Bytes.toNat_byte (by omega)] at hij
    exact hij
  subst hindex
  rfl

/-! ### Layouts that begin alike -/

/-- Layouts in front of the same bytes begin with the same tag. -/
theorem nodeTag_eq {m n : Micheline} {x y s t : Bytes} (hx : m.layout = .ok x)
    (hy : n.layout = .ok y) (h : x ++ s = y ++ t) : m.nodeTag = n.nodeTag := by
  obtain ⟨_, rfl⟩ := layout_eq_cons hx
  obtain ⟨_, rfl⟩ := layout_eq_cons hy
  exact (List.cons.inj h).1

theorem length_lt_of_fits {items : List Micheline} {body : Bytes} (hfits : (writeAll items).Fits)
    (hbody : layoutAll items = .ok body) : body.length < 2 ^ 32 :=
  hfits body ((writeAll_denotes items).run_eq.trans hbody)

theorem fits_of_layoutAll_eq {items : List Micheline} {body : Bytes}
    (hbody : layoutAll items = .ok body) (hlt : body.length < 2 ^ 32) : (writeAll items).Fits := by
  intro written hwritten
  rw [(writeAll_denotes items).run_eq, hbody, Except.ok.injEq] at hwritten
  exact hwritten ▸ hlt

theorem layoutAll_cons_eq_cons {item : Micheline} {items : List Micheline} {body : Bytes}
    (h : layoutAll (item :: items) = .ok body) : ∃ b rest, body = b :: rest := by
  obtain ⟨first, hfirst, others, -, rfl⟩ := Layout.append_eq_ok_iff.mp h
  obtain ⟨rest, rfl⟩ := layout_eq_cons hfirst
  exact ⟨_, _, rfl⟩

mutual

/-- Bytes that begin with the layouts of two trees begin with alike trees, and go on alike. -/
theorem layout_unique : (m n : Micheline) → {x y s t : Bytes} → m.Framable → n.Framable →
    m.layout = .ok x → n.layout = .ok y → x ++ s = y ++ t → m.Alike n ∧ s = t
  | m, n, x, y, s, t, hm, hn, hx, hy, h => by
    match m, n, sameForm_of_nodeTag_eq (nodeTag_eq hx hy h) with
    | _, _, .int a b =>
      cases hx
      cases hy
      obtain ⟨rfl, rfl⟩ := Zarith.encodeInteger_append_inj.mp (List.cons.inj h).2
      exact ⟨.int a, rfl⟩
    | _, _, .string a b =>
      cases hx
      cases hy
      obtain ⟨hab, rfl⟩ := (frame_append_inj hm hn).mp (List.cons.inj h).2
      obtain rfl := Bytes.utf8_injective hab
      exact ⟨.string a, rfl⟩
    | _, _, .bytes a b =>
      cases hx
      cases hy
      obtain ⟨rfl, rfl⟩ := (frame_append_inj hm hn).mp (List.cons.inj h).2
      exact ⟨.bytes a, rfl⟩
    | _, _, .seq xs ys =>
      obtain ⟨_, ⟨⟩, _, hxs, rfl⟩ := Layout.append_eq_ok_iff.mp hx
      obtain ⟨_, ⟨⟩, _, hys, rfl⟩ := Layout.append_eq_ok_iff.mp hy
      obtain ⟨body, hbody, rfl⟩ := Layout.framed_eq_ok_iff.mp hxs
      obtain ⟨other, hother, rfl⟩ := Layout.framed_eq_ok_iff.mp hys
      obtain ⟨rfl, rfl⟩ := (frame_append_inj (length_lt_of_fits hm.2 hbody)
        (length_lt_of_fits hn.2 hother)).mp (List.cons.inj h).2
      exact ⟨.seq (layoutAll_unique xs ys hm.1 hn.1 hbody hother (.inr ⟨rfl, rfl⟩) rfl).1, rfl⟩
    | _, _, @SameForm.narrow f g xs ys as bs hxs hlength hannots =>
      obtain ⟨code, body, hcode, hbody, rfl⟩ := layout_prim_eq_ok_iff.mp hx
      obtain ⟨code', body', hcode', hbody', rfl⟩ := layout_prim_eq_ok_iff.mp hy
      simp only [List.cons_append, List.cons.injEq] at h
      obtain ⟨-, rfl, h⟩ := h
      obtain rfl := opcode?_inj hcode hcode'
      have hys : ys.length ≤ 2 := hlength ▸ hxs
      rw [if_pos hxs, if_pos hys, List.append_assoc, List.append_assoc, ← hannots] at h
      obtain ⟨hargs, h⟩ := layoutAll_unique xs ys hm.1 hn.1 hbody hbody' (.inl hlength) h
      -- The tag has settled whether annotations follow, so they do in both layouts or in neither.
      have hmarked : as = [] ↔ bs = [] := by
        rw [← List.isEmpty_iff, ← List.isEmpty_iff, hannots]
      by_cases hnone : as.isEmpty
      · obtain rfl := List.isEmpty_iff.mp hnone
        obtain rfl := hmarked.mp rfl
        exact ⟨.prim hargs rfl fun _ => hmarked, by simpa using h⟩
      · rw [if_neg hnone, if_neg hnone] at h
        obtain ⟨hjoined, hrest⟩ := (frame_append_inj hm.2.2 hn.2.2).mp h
        exact ⟨.prim hargs (Bytes.utf8_injective hjoined) fun _ => hmarked, hrest⟩
    | _, _, @SameForm.wide f g xs ys as bs hxs hys =>
      obtain ⟨code, body, hcode, hbody, rfl⟩ := layout_prim_eq_ok_iff.mp hx
      obtain ⟨code', body', hcode', hbody', rfl⟩ := layout_prim_eq_ok_iff.mp hy
      simp only [List.cons_append, List.cons.injEq] at h
      obtain ⟨-, rfl, h⟩ := h
      obtain rfl := opcode?_inj hcode hcode'
      rw [if_neg hxs, if_neg hys, List.append_assoc, List.append_assoc] at h
      have hfits := length_lt_of_fits (hm.2.1 (by omega)) hbody
      have hfits' := length_lt_of_fits (hn.2.1 (by omega)) hbody'
      -- The arguments end with their frame, which is what tells how many there are.
      obtain ⟨rfl, hannots⟩ := (frame_append_inj hfits hfits').mp h
      obtain ⟨hargs, -⟩ := layoutAll_unique xs ys hm.1 hn.1 hbody hbody' (.inr ⟨rfl, rfl⟩) rfl
      obtain ⟨hjoined, hrest⟩ := (frame_append_inj hm.2.2 hn.2.2).mp hannots
      exact ⟨.prim hargs (Bytes.utf8_injective hjoined) fun h => absurd h hxs, hrest⟩

/-- Bytes that begin with the layouts of two lists of trees begin with alike lists and go on
alike, if the lists have the same length or nothing follows. -/
theorem layoutAll_unique : (ms ns : List Micheline) → {x y s t : Bytes} → FramableAll ms →
    FramableAll ns → layoutAll ms = .ok x → layoutAll ns = .ok y →
      ms.length = ns.length ∨ s = [] ∧ t = [] → x ++ s = y ++ t → AlikeAll ms ns ∧ s = t
  | [], [], x, y, s, t, _, _, hx, hy, _, h => by
    cases hx
    cases hy
    exact ⟨.nil, h⟩
  | [], n :: ns, x, y, s, t, _, _, hx, hy, hend, h => by
    cases hx
    obtain ⟨_, rest, rfl⟩ := layoutAll_cons_eq_cons hy
    obtain hlength | ⟨rfl, rfl⟩ := hend
    · cases hlength
    · cases h
  | m :: ms, [], x, y, s, t, _, _, hx, hy, hend, h => by
    cases hy
    obtain ⟨_, rest, rfl⟩ := layoutAll_cons_eq_cons hx
    obtain hlength | ⟨rfl, rfl⟩ := hend
    · cases hlength
    · cases h
  | m :: ms, n :: ns, x, y, s, t, hm, hn, hx, hy, hend, h => by
    obtain ⟨first, hfirst, others, hothers, rfl⟩ := Layout.append_eq_ok_iff.mp hx
    obtain ⟨first', hfirst', others', hothers', rfl⟩ := Layout.append_eq_ok_iff.mp hy
    rw [List.append_assoc, List.append_assoc] at h
    obtain ⟨hhead, h⟩ := layout_unique m n hm.1 hn.1 hfirst hfirst' h
    have hend' : ms.length = ns.length ∨ s = [] ∧ t = [] :=
      hend.imp_left fun hlength => Nat.succ_injective hlength
    obtain ⟨htail, hrest⟩ := layoutAll_unique ms ns hm.2 hn.2 hothers hothers' hend' h
    exact ⟨.cons hhead htail, hrest⟩

end

/-! ### Alike trees -/

theorem AlikeAll.length_eq {xs ys : List Micheline} (h : AlikeAll xs ys) :
    xs.length = ys.length := by
  induction xs generalizing ys with
  | nil =>
    cases h
    rfl
  | cons x xs ih =>
    cases h with
    | cons _ htail => rw [List.length_cons, List.length_cons, ih htail]

mutual

/-- Alike trees have the same layout. -/
theorem layout_eq_of_alike {m n : Micheline} : m.Alike n → m.layout = n.layout
  | .int _ | .string _ | .bytes _ => rfl
  | .seq hitems => by rw [layout, layout, layoutAll_eq_of_alikeAll hitems]
  | @Alike.prim name xs ys as bs hargs hjoined hmarked => by
    have hlength := hargs.length_eq
    have hannots : joinAnnots as = joinAnnots bs := congrArg Bytes.utf8 hjoined
    rw [layout, layout, layoutAll_eq_of_alikeAll hargs, hannots, ← hlength]
    by_cases harity : xs.length ≤ 2
    · have hempty : as.isEmpty = bs.isEmpty := by
        rw [Bool.eq_iff_iff, List.isEmpty_iff, List.isEmpty_iff]
        exact hmarked harity
      rw [hempty]
    · simp only [if_neg harity]

/-- Lists of alike trees have the same layout. -/
theorem layoutAll_eq_of_alikeAll {ms ns : List Micheline} :
    AlikeAll ms ns → layoutAll ms = layoutAll ns
  | .nil => rfl
  | .cons hhead htail => by
    rw [layoutAll, layoutAll, layout_eq_of_alike hhead, layoutAll_eq_of_alikeAll htail]

end

end Micheline

end TezosWallet
