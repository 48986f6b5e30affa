import TezosWallet.Json.Basic

/-!
# Members of JSON objects

An object has the members it was made of, the last one where keys repeat. A member of a member is
found by the path of the keys that lead to it.

## Main definitions

* `Json.at?` — the value at the end of a path.

## Main results

* `Json.lookup_insert`, `Json.lookup_foldl_insert` — the members of an object.
-/

namespace TezosWallet.Json

variable {key k : String} {value v : Json} {entries : List (String × Json)}

/-- The value at the end of a path of keys. -/
def at? : List String → Json → Option Json
  | [], value => some value
  | key :: path, value => (value.get? key).bind (at? path)

theorem lookup_nil : lookup key [] = none := rfl

theorem lookup_cons :
    lookup key ((k, v) :: entries) = if k = key then some v else lookup key entries := by
  by_cases h : k = key <;> simp [lookup, h]

/-- Putting in a member changes what its key gives, and nothing else. -/
theorem lookup_insert (k : String) (v : Json) (entries : List (String × Json)) :
    lookup key (insert k v entries) = if k = key then some v else lookup key entries := by
  induction entries with
  | nil => rw [insert, lookup_cons]
  | cons entry rest ih =>
    obtain ⟨k', v'⟩ := entry
    rw [insert]
    split
    · rw [lookup_cons]
    · split
      · next hk =>
        subst hk
        rw [lookup_cons, lookup_cons]
        split <;> rfl
      · next hk =>
        rw [lookup_cons, ih, lookup_cons]
        split <;> split <;> simp_all

/-- Members put in one after the other, the last one of a key first. -/
theorem lookup_foldl_insert (entries acc : List (String × Json)) :
    lookup key (entries.foldl (fun acc entry => insert entry.1 entry.2 acc) acc) =
      (lookup key entries.reverse).or (lookup key acc) := by
  induction entries generalizing acc with
  | nil => rfl
  | cons entry rest ih =>
    rw [List.foldl_cons, ih, lookup_insert, List.reverse_cons]
    simp only [lookup, List.find?_append]
    cases rest.reverse.find? fun entry => decide (entry.1 = key) with
    | some found => rfl
    | none =>
      by_cases h : entry.1 = key <;> simp [h]

/-- The members of an object made of members. -/
theorem exists_object_eq_members (entries : List (String × Json)) :
    ∃ sorted, object entries = members sorted ∧
      ∀ key, lookup key sorted = lookup key entries.reverse :=
  ⟨_, rfl, fun _ => by rw [lookup_foldl_insert, lookup_nil, Option.or_none]⟩

end TezosWallet.Json
