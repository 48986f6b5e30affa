import TezosWallet.Proofs.Hex
import TezosWallet.Proofs.Json
import TezosWallet.Proofs.Text.Numeral
import TezosWallet.Micheline.Json

/-!
# Trees are read back from their JSON values

An object is read as a literal or as a primitive, and the value of a primitive has exactly the
members that such a reading looks at.

## Main definitions

* `Micheline.unlessEmpty` — a list as a member that is left out if it is empty.

## Main results

* `Micheline.ofJson_members_eq_ok_iff` — how an object is read.
* `Micheline.exists_toJson_prim_eq` — the members of a primitive's value.
* `Micheline.ofJson_toJson` — a tree is read from its JSON value.
-/

namespace TezosWallet.Micheline

open Json

/-- The arguments of an object are those of its first member `args`. -/
theorem argsOf_eq (entries : List (String × Json)) :
    argsOf entries = match lookup "args" entries with
      | none => .ok []
      | some (.array items) => ofJsonAll items
      | some _ => .error (.parse .argsNotArray) := by
  induction entries with
  | nil => rw [argsOf, lookup_nil]
  | cons entry rest ih =>
    obtain ⟨key, value⟩ := entry
    by_cases hkey : key = "args" <;> cases value <;> simp [argsOf, lookup_cons, hkey, ih]

theorem mapM_readString (fault : MichelineFault) (texts : List String) :
    (texts.map Json.string).mapM (readString fault) = .ok texts := by
  rw [Outcome.mapM_eq_ok_iff, List.forall₂_map_left_iff, List.forall₂_same]
  exact fun _ _ => rfl

/-- An object is read as a literal, or by the three members of a primitive. -/
theorem ofJson_members_eq_ok_iff {entries : List (String × Json)} {node : Micheline} :
    ofJson (.members entries) = .ok node ↔ literal? entries = some (.ok node) ∨
      literal? entries = none ∧ ∃ name args annots, lookup "prim" entries = some (.string name) ∧
        argsOf entries = .ok args ∧ annotsOf entries = .ok annots ∧
        prim name args annots = node := by
  have hstring {name : String} : (lookup "prim" entries).bind asString? = some name ↔
      lookup "prim" entries = some (.string name) := by
    rw [Option.bind_eq_some_iff]
    refine ⟨?_, fun h => ⟨_, h, rfl⟩⟩
    rintro ⟨value, hvalue, htext⟩
    cases value <;> simp_all [asString?]
  rw [ofJson]
  cases hliteral : literal? entries with
  | some result => simp
  | none =>
    simp only [reduceCtorEq, false_or, true_and, ← hstring]
    cases hname : (lookup "prim" entries).bind asString? with
    | none => simp
    | some name => simp [Outcome.bind_eq_ok_iff]

/-- A list that is left out if it is empty. -/
def unlessEmpty (items : List Json) : Option Json :=
  if items.isEmpty then none else some (.array items)

/-- The members of a primitive's value. -/
theorem exists_toJson_prim_eq (name : String) (args : List Micheline) (annots : List String) :
    ∃ entries, (prim name args annots).toJson = .members entries ∧
      lookup "prim" entries = some (.string name) ∧
      lookup "args" entries = unlessEmpty (toJsonAll args) ∧
      lookup "annots" entries = unlessEmpty (annots.map .string) ∧
      ∀ key ∉ ["prim", "args", "annots"], lookup key entries = none := by
  obtain ⟨entries, hobject, hlookup⟩ := exists_object_eq_members
    ([("prim", .string name)] ++
      (if args.isEmpty then [] else [("args", .array (toJsonAll args))]) ++
      (if annots.isEmpty then [] else [("annots", .array (annots.map .string))]))
  refine ⟨entries, by rw [toJson, hobject], ?_, ?_, ?_, ?_⟩
  · cases args <;> cases annots <;> simp [hlookup, lookup_cons]
  · cases args <;> cases annots <;>
      simp [hlookup, lookup_cons, lookup_nil, unlessEmpty, toJsonAll]
  · cases args <;> cases annots <;> simp [hlookup, lookup_cons, lookup_nil, unlessEmpty]
  · intro key hkey
    simp only [List.mem_cons, List.not_mem_nil, or_false, not_or] at hkey
    obtain ⟨hprim, hargs, hannots⟩ := hkey
    cases args <;> cases annots <;>
      simp [hlookup, lookup_cons, lookup_nil, Ne.symm hprim, Ne.symm hargs, Ne.symm hannots]

mutual

/-- A tree is read from its JSON value. -/
theorem ofJson_toJson : (node : Micheline) → ofJson node.toJson = .ok node
  | int value => by
    obtain ⟨entries, hobject, hlookup⟩ :=
      exists_object_eq_members [("int", .string (toString value))]
    have hread := Numeral.spacedInteger?_toString value
    rw [toJson, hobject, ofJson]
    simp_all [literal?, lookup_cons, lookup_nil, readString]
  | string value => by
    obtain ⟨entries, hobject, hlookup⟩ := exists_object_eq_members [("string", .string value)]
    rw [toJson, hobject, ofJson]
    simp [literal?, hlookup, lookup_cons, lookup_nil, readString]
  | bytes value => by
    obtain ⟨entries, hobject, hlookup⟩ :=
      exists_object_eq_members [("bytes", .string (Hex.encode value))]
    rw [toJson, hobject, ofJson]
    simp [literal?, hlookup, lookup_cons, lookup_nil, readString,
      Hex.decode_of_writes (Hex.writes_encode value)]
  | seq items => by
    rw [toJson, ofJson, ofJsonAll_toJsonAll items]
    rfl
  | prim name args annots => by
    obtain ⟨entries, hwritten, hprim, hargs, hannots, hothers⟩ :=
      exists_toJson_prim_eq name args annots
    have hliteral : literal? entries = none := by
      simp [literal?, hothers "int" (by simp), hothers "string" (by simp),
        hothers "bytes" (by simp)]
    have hall := ofJsonAll_toJsonAll args
    rw [hwritten]
    refine ofJson_members_eq_ok_iff.mpr (.inr ⟨hliteral, name, args, annots, hprim, ?_, ?_, rfl⟩)
    · rw [argsOf_eq, hargs]
      cases args with
      | nil => rfl
      | cons arg rest => exact hall
    · rw [annotsOf, hannots]
      cases annots with
      | nil => rfl
      | cons annot rest => exact mapM_readString .annotNotString (annot :: rest)

/-- Trees are read from their JSON values. -/
theorem ofJsonAll_toJsonAll : (items : List Micheline) → ofJsonAll (toJsonAll items) = .ok items
  | [] => by rw [toJsonAll, ofJsonAll]
  | item :: rest => by
    rw [toJsonAll, ofJsonAll, ofJson_toJson item, ofJsonAll_toJsonAll rest]
    rfl

end

end TezosWallet.Micheline
