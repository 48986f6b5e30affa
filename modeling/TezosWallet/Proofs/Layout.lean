import Mathlib.Data.List.Forall2
import TezosWallet.Proofs.Bytes
import TezosWallet.Proofs.Outcome
import TezosWallet.Buffer

/-!
# Layouts

The layout of a value is the byte string it is written as, or the fault that keeps it from being
written. Layouts are put together one behind the other. They can be taken apart again if each ends
by itself: whatever follows, bytes that begin with two layouts begin with layouts of like values.

## Main definitions

* `Layout` — bytes or a fault; `Layout.each`, `Layout.optional` — of lists and of options.
* `Layout.fault?` — the fault of a layout.
* `Layout.Settles` — bytes that begin with both layouts show that a fact holds and go on alike.

## Main results

* `frame_append_inj` — framed bytes end by themselves.
* `Layout.each_eq_ok_iff`, `Layout.each_eq_error_iff` — the layout of a list: those of all its
  elements, or the fault of the first element that has none.
* `Layout.Settles.append`, `Layout.Settles.framed`, `Layout.settles_optional` — composed layouts
  settle what their parts do.
* `Layout.forall₂_of_each_eq` — the layouts of a list tell its elements.
-/

namespace TezosWallet

/-! ### Frames -/

theorem length_frameLength (length : Nat) : (frameLength length).length = frameSize :=
  Bytes.length_ofNatBE ..

/-- Framed bytes end by themselves, as long as their length fits the frame. -/
theorem frame_append_inj {x y s t : Bytes} (hx : x.length < 2 ^ 32) (hy : y.length < 2 ^ 32) :
    frame x ++ s = frame y ++ t ↔ x = y ∧ s = t := by
  refine ⟨fun h => ?_, fun ⟨hxy, ht⟩ => hxy ▸ ht ▸ rfl⟩
  simp only [frame, List.append_assoc] at h
  obtain ⟨hlength, hrest⟩ := List.append_inj h (by simp only [length_frameLength])
  exact List.append_inj hrest ((Bytes.ofNatBE_inj (by exact hx) (by exact hy)).mp hlength)

/-- The length in front of a body tells nothing that is not known from the body. -/
theorem eq_of_frame_append_eq {x y s t : Bytes} (h : frame x ++ s = frame y ++ t) :
    x ++ s = y ++ t := by
  simp only [frame, List.append_assoc] at h
  exact (List.append_inj h (by simp only [length_frameLength])).2

/-- Bytes, or the fault that keeps a value from being written. -/
abbrev Layout (ε : Type) : Type := Except ε Bytes

namespace Layout

variable {ε α : Type} {x y x' y' : Layout ε} {p q : Prop}

/-- One layout behind another. The first fault counts. -/
instance : Append (Layout ε) where
  append x y := x.bind fun a => y.map fun b => a ++ b

/-- A layout behind its length. -/
def framed (x : Layout ε) : Layout ε := x.map frame

@[simp] theorem ok_append_ok (a b : Bytes) :
    (.ok a : Layout ε) ++ (.ok b : Layout ε) = .ok (a ++ b) := rfl

@[simp] theorem error_append (fault : ε) (y : Layout ε) : .error fault ++ y = .error fault := rfl

@[simp] theorem ok_append_error (a : Bytes) (fault : ε) :
    (.ok a : Layout ε) ++ (.error fault : Layout ε) = .error fault := rfl

@[simp] theorem framed_ok (a : Bytes) : framed (.ok a : Layout ε) = .ok (frame a) := rfl

@[simp] theorem framed_error (fault : ε) : framed (.error fault) = .error fault := rfl

theorem append_eq_ok_iff {c : Bytes} :
    x ++ y = .ok c ↔ ∃ a, x = .ok a ∧ ∃ b, y = .ok b ∧ c = a ++ b := by
  cases x <;> cases y <;> simp [eq_comm (a := c)]

theorem append_eq_error_iff {fault : ε} :
    x ++ y = .error fault ↔ x = .error fault ∨ ∃ a, x = .ok a ∧ y = .error fault := by
  cases x <;> cases y <;> simp

theorem append_ok_nil (x : Layout ε) : x ++ (.ok [] : Layout ε) = x := by
  cases x <;> simp

theorem append_assoc (x y z : Layout ε) : x ++ y ++ z = x ++ (y ++ z) := by
  cases x <;> cases y <;> cases z <;> simp

theorem framed_eq_ok_iff {c : Bytes} : x.framed = .ok c ↔ ∃ a, x = .ok a ∧ c = frame a := by
  cases x <;> simp [eq_comm (a := c)]

/-- The layouts of the elements of a list, one behind the other. -/
def each (layout : α → Layout ε) : List α → Layout ε
  | [] => .ok []
  | a :: rest => layout a ++ each layout rest

/-- The layout of an optional value: a flag, and the value if there is one. -/
def optional (present absent : UInt8) (layout : α → Layout ε) : Option α → Layout ε
  | some a => .ok [present] ++ layout a
  | none => .ok [absent]

/-- Where every element has bytes, the list has them all in a row. -/
theorem each_ok (bytes : α → Bytes) (items : List α) :
    each (fun a => (.ok (bytes a) : Layout ε)) items = .ok (items.flatMap bytes) := by
  induction items with
  | nil => rfl
  | cons a rest ih => rw [each, ih, List.flatMap_cons, ok_append_ok]

theorem each_append (layout : α → Layout ε) (as bs : List α) :
    each layout (as ++ bs) = each layout as ++ each layout bs := by
  induction as with
  | nil => cases h : each layout bs <;> simp [each, h]
  | cons a as ih => rw [List.cons_append, each, each, ih, append_assoc]

/-- A list has bytes exactly if each of its elements does, and then has them in a row. -/
theorem each_eq_ok_iff {layout : α → Layout ε} {items : List α} {bytes : Bytes} :
    each layout items = .ok bytes ↔
      ∃ parts, List.Forall₂ (fun a part => layout a = .ok part) items parts ∧
        bytes = parts.flatten := by
  induction items generalizing bytes with
  | nil => simp [each, eq_comm]
  | cons a rest ih =>
    simp only [each, append_eq_ok_iff, ih, List.forall₂_cons_left_iff]
    constructor
    · rintro ⟨part, hpart, _, ⟨parts, hparts, rfl⟩, rfl⟩
      exact ⟨_, ⟨part, parts, hpart, hparts, rfl⟩, rfl⟩
    · rintro ⟨_, ⟨part, parts, hpart, hparts, rfl⟩, rfl⟩
      exact ⟨part, hpart, _, ⟨parts, hparts, rfl⟩, rfl⟩

/-- A list has the fault of its first element without bytes. -/
theorem each_eq_error_iff {layout : α → Layout ε} {items : List α} {fault : ε} :
    each layout items = .error fault ↔
      ∃ before a after, items = before ++ a :: after ∧ (∀ b ∈ before, ∃ part, layout b = .ok part) ∧
        layout a = .error fault := by
  constructor
  · induction items with
    | nil => rintro ⟨⟩
    | cons a rest ih =>
      intro h
      obtain ha | ⟨part, ha, hrest⟩ := append_eq_error_iff.mp h
      · exact ⟨[], a, rest, rfl, by simp, ha⟩
      · obtain ⟨before, b, after, rfl, hbefore, hb⟩ := ih hrest
        exact ⟨a :: before, b, after, rfl, List.forall_mem_cons.mpr ⟨⟨part, ha⟩, hbefore⟩, hb⟩
  · rintro ⟨before, a, after, rfl, hbefore, ha⟩
    have hparts : ∃ bytes, each layout before = .ok bytes := by
      induction before with
      | nil => exact ⟨[], rfl⟩
      | cons b before ih =>
        obtain ⟨⟨part, hpart⟩, hrest⟩ := List.forall_mem_cons.mp hbefore
        obtain ⟨bytes, hbytes⟩ := ih hrest
        exact ⟨part ++ bytes, by rw [each, hpart, hbytes, ok_append_ok]⟩
    obtain ⟨bytes, hbytes⟩ := hparts
    rw [each_append, hbytes, each, ha, error_append, ok_append_error]

/-! ### The fault of a layout -/

/-- The fault of a layout that has no bytes. -/
def fault? : Layout ε → Option ε
  | .ok _ => none
  | .error fault => some fault

@[simp] theorem fault?_ok (bytes : Bytes) : fault? (.ok bytes : Layout ε) = none := rfl

@[simp] theorem fault?_error (fault : ε) : fault? (.error fault) = some fault := rfl

theorem fault?_eq_some_iff {fault : ε} : x.fault? = some fault ↔ x = .error fault := by
  cases x <;> simp

/-- Of two layouts in a row the first fault counts. -/
@[simp] theorem fault?_append (x y : Layout ε) : (x ++ y).fault? = x.fault?.or y.fault? := by
  cases x <;> cases y <;> rfl

@[simp] theorem fault?_framed (x : Layout ε) : x.framed.fault? = x.fault? := by
  cases x <;> rfl

@[simp] theorem fault?_mapError {ε' : Type} (cause : ε → ε') (x : Layout ε) :
    fault? (x.mapError cause) = x.fault?.map cause := by
  cases x <;> rfl

@[simp] theorem fault?_optional (present absent : UInt8) (layout : α → Layout ε) (v : Option α) :
    fault? (optional present absent layout v) = v.bind fun a => (layout a).fault? := by
  cases v <;> simp [optional]

/-! ### Layouts that end by themselves -/

/-- Bytes that begin with both layouts show that `p` holds, and go on alike. -/
def Settles (x y : Layout ε) (p : Prop) : Prop :=
  ∀ ⦃a b s t : Bytes⦄, x = .ok a → y = .ok b → a ++ s = b ++ t → p ∧ s = t

theorem settles_ok {a b : Bytes} (h : ∀ s t, a ++ s = b ++ t → p ∧ s = t) :
    Settles (.ok a : Layout ε) (.ok b) p := by
  rintro _ _ s t ⟨⟩ ⟨⟩
  exact h s t

theorem settles_byte {a b : UInt8} (h : a = b → p) :
    Settles (.ok [a] : Layout ε) (.ok [b]) p :=
  settles_ok fun _ _ heq => (List.cons.inj heq).imp_left h

theorem Settles.imp (h : Settles x y p) (hpq : p → q) : Settles x y q := by
  intro _ _ _ _ hx hy heq
  exact (h hx hy heq).imp_left hpq

/-- What stands in front is settled first, and may be used for what stands behind. -/
theorem Settles.append (h : Settles x y p) (h' : p → Settles x' y' q) :
    Settles (x ++ x') (y ++ y') (p ∧ q) := by
  intro _ _ s t hx hy heq
  obtain ⟨a, ha, a', ha', rfl⟩ := append_eq_ok_iff.mp hx
  obtain ⟨b, hb, b', hb', rfl⟩ := append_eq_ok_iff.mp hy
  rw [List.append_assoc, List.append_assoc] at heq
  obtain ⟨hp, heq⟩ := h ha hb heq
  obtain ⟨hq, heq⟩ := h' hp ha' hb' heq
  exact ⟨⟨hp, hq⟩, heq⟩

/-- A length in front of a layout that ends by itself does no harm, even if it is cut off. -/
theorem Settles.framed (h : Settles x y p) : Settles x.framed y.framed p := by
  intro _ _ s t hx hy heq
  cases x <;> cases hx
  cases y <;> cases hy
  exact h rfl rfl (eq_of_frame_append_eq heq)

theorem settles_frames {a b a' b' : Bytes} (h : ∀ s t, a ++ s = a' ++ t → p ∧ s = t)
    (h' : ∀ s t, b ++ s = b' ++ t → q ∧ s = t) :
    Settles (.ok (frame a) ++ .ok (frame b) : Layout ε) (.ok (frame a') ++ .ok (frame b'))
      (p ∧ q) :=
  (settles_ok h).framed.append fun _ => (settles_ok h').framed

theorem settles_mapError {ε' : Type} {cause : ε → ε'} (h : Settles x y p) :
    Settles (x.mapError cause) (y.mapError cause) p := by
  intro _ _ _ _ hx hy heq
  exact h (Outcome.mapError_eq_ok_iff.mp hx) (Outcome.mapError_eq_ok_iff.mp hy) heq

/-- The flag in front of an optional value tells whether there is one. -/
theorem settles_optional {present absent : UInt8} (hflag : present ≠ absent)
    {layout : α → Layout ε} {r : α → α → Prop} {v w : Option α}
    (h : ∀ a ∈ v, ∀ b ∈ w, Settles (layout a) (layout b) (r a b)) :
    Settles (optional present absent layout v) (optional present absent layout w)
      (Option.Rel r v w) := by
  have hsome : ∀ (a : α) (s t bytes : Bytes), optional present absent layout (some a) = .ok bytes →
      bytes ++ s ≠ absent :: t := by
    intro a s t bytes hbytes heq
    obtain ⟨_, ⟨⟩, tail, -, rfl⟩ := append_eq_ok_iff.mp hbytes
    exact hflag (List.cons.inj heq).1
  cases v with
  | none =>
    cases w with
    | none => exact settles_byte fun _ => .none
    | some b =>
      rintro _ _ s t ⟨⟩ hy heq
      exact absurd heq.symm (hsome b t s _ hy)
  | some a =>
    cases w with
    | none =>
      rintro _ _ s t hx ⟨⟩ heq
      exact absurd heq (hsome a s t _ hx)
    | some b =>
      have hhead : Settles (.ok [present] : Layout ε) (.ok [present]) True :=
        settles_byte fun _ => trivial
      exact (hhead.append fun _ => h a rfl b rfl).imp fun hab => .some hab.2

theorem each_cons_ne_nil {layout : α → Layout ε} (hnil : ∀ a, layout a ≠ .ok []) (a : α)
    (as : List α) : each layout (a :: as) ≠ .ok [] := by
  intro h
  obtain ⟨first, hfirst, others, -, hnone⟩ := append_eq_ok_iff.mp h
  obtain ⟨rfl, -⟩ := List.append_eq_nil_iff.mp hnone.symm
  exact hnil a hfirst

/-- If elements have bytes and end by themselves, the bytes of a list tell its elements. -/
theorem forall₂_of_each_eq {layout : α → Layout ε} {r : α → α → Prop} {as bs : List α}
    {bytes : Bytes} (hnil : ∀ a, layout a ≠ .ok [])
    (h : ∀ a ∈ as, ∀ b ∈ bs, Settles (layout a) (layout b) (r a b))
    (has : each layout as = .ok bytes) (hbs : each layout bs = .ok bytes) :
    List.Forall₂ r as bs := by
  induction as generalizing bs bytes with
  | nil =>
    -- No bytes are left, so no element is.
    cases has
    cases bs with
    | nil => exact .nil
    | cons b bs => exact absurd hbs (each_cons_ne_nil hnil b bs)
  | cons a as ih =>
    cases bs with
    | nil =>
      cases hbs
      exact absurd has (each_cons_ne_nil hnil a as)
    | cons b bs =>
      obtain ⟨first, hfirst, others, hothers, rfl⟩ := append_eq_ok_iff.mp has
      obtain ⟨first', hfirst', others', hothers', heq⟩ := append_eq_ok_iff.mp hbs
      obtain ⟨hab, rfl⟩ := h a (by simp) b (by simp) hfirst hfirst' heq
      refine .cons hab (ih (fun c hc d hd => ?_) hothers hothers')
      exact h c (List.mem_cons_of_mem _ hc) d (List.mem_cons_of_mem _ hd)

theorem each_eq_of_forall₂ {layout : α → Layout ε} {as bs : List α}
    (h : List.Forall₂ (fun a b => layout a = layout b) as bs) :
    each layout as = each layout bs := by
  induction h with
  | nil => rfl
  | cons hab _ ih => rw [each, each, hab, ih]

/-- Bytes of elements that end by themselves tell the elements when they stand in a row. -/
theorem eq_of_flatMap_eq {bytes : α → Bytes} {as bs : List α} (hnil : ∀ a, bytes a ≠ [])
    (h : ∀ a ∈ as, ∀ b ∈ bs, ∀ s t, bytes a ++ s = bytes b ++ t → a = b ∧ s = t)
    (heq : as.flatMap bytes = bs.flatMap bytes) : as = bs := by
  have has : each (fun a => (.ok (bytes a) : Layout Empty)) as = .ok (as.flatMap bytes) :=
    each_ok bytes as
  have hbs : each (fun b => (.ok (bytes b) : Layout Empty)) bs = .ok (as.flatMap bytes) := by
    rw [each_ok, heq]
  rw [← List.forall₂_eq_eq_eq]
  exact forall₂_of_each_eq (fun a ha => hnil a (Except.ok.inj ha))
    (fun a ha b hb => settles_ok (h a ha b hb)) has hbs

end Layout

end TezosWallet
