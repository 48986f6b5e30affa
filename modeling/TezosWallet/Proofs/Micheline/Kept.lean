import TezosWallet.Proofs.Micheline.Json

/-!
# What reading a tree from JSON keeps

An object is read as the first form of which it has the naming key, and a form looks at its own
keys only: a literal at one, a primitive at three. The other members are passed over without an
error, so the same tree is read without them. Nothing else is lost: the tree is written as the
value that is left, at every depth, except that integers and bytes take their usual spelling and
empty lists of arguments or annotations are left out.

## Main definitions

* `Micheline.formKeys` — the keys of the form as which an object is read.
* `Micheline.prune` — a JSON value without the members that are passed over, at every depth.
* `Micheline.Respelled` — two JSON values that differ in the spelling of literals, in empty lists
  and in the order of members only.

## Main results

* `Micheline.literal_kept`, `Micheline.prim_kept` — what is kept of an object of either kind.
* `Micheline.member_beside_literal_lost` — a member beside a literal is lost.
* `Micheline.form_members_kept` — a tree is read from the pruned value, and written as it,
  respelled.
-/

namespace TezosWallet.Micheline

open Json

/-! ### The members that a form looks at -/

/-- The keys of the form as which an object is read: that of a literal it has, `int` before
`string` before `bytes`, and otherwise those of a primitive. -/
def formKeys (entries : List (String × Json)) : List String :=
  match lookup "int" entries, lookup "string" entries, lookup "bytes" entries with
  | some _, _, _ => ["int"]
  | none, some _, _ => ["string"]
  | none, none, some _ => ["bytes"]
  | none, none, none => ["prim", "args", "annots"]

mutual

/-- The value without the members that are passed over, at every depth. -/
def prune : Json → Json
  | .array items => .array (pruneAll items)
  | .members entries => .members (pruneMembers (formKeys entries) entries)
  | value => value

/-- The values without the members that are passed over. -/
def pruneAll : List Json → List Json
  | [] => []
  | item :: rest => prune item :: pruneAll rest

/-- The members of the given keys, their values without the members that are passed over. -/
def pruneMembers (keys : List String) : List (String × Json) → List (String × Json)
  | [] => []
  | (key, value) :: rest =>
    if key ∈ keys then (key, prune value) :: pruneMembers keys rest else pruneMembers keys rest

end

theorem lookup_pruneMembers (key : String) (keys : List String) (entries : List (String × Json)) :
    lookup key (pruneMembers keys entries) =
      if key ∈ keys then (lookup key entries).map prune else none := by
  induction entries with
  | nil => simp [pruneMembers, lookup_nil]
  | cons entry rest ih =>
    obtain ⟨k, value⟩ := entry
    by_cases hk : k = key
    · subst hk
      by_cases hmem : k ∈ keys <;> simp [pruneMembers, lookup_cons, hmem, ih]
    · by_cases hmem : k ∈ keys <;> simp [pruneMembers, lookup_cons, hmem, hk, ih]

/-- Strings have no members to lose. -/
theorem pruneAll_strings (texts : List String) :
    pruneAll (texts.map Json.string) = texts.map Json.string := by
  induction texts with
  | nil => rfl
  | cons text rest ih => simp only [List.map_cons, pruneAll, prune, ih]

/-- A member that must be a string is one. -/
theorem eq_of_readString {fault : MichelineFault} {value : Json} {text : String}
    (h : readString fault value = .ok text) : value = .string text := by
  cases value <;> simp_all [readString]

theorem readString_prune (fault : MichelineFault) (value : Json) :
    readString fault (prune value) = readString fault value := by
  cases value <;> rfl

theorem mapM_readString_pruneAll (fault : MichelineFault) (items : List Json) :
    (pruneAll items).mapM (readString fault) = items.mapM (readString fault) := by
  induction items with
  | nil => rfl
  | cons item rest ih => simp only [pruneAll, List.mapM_cons, readString_prune, ih]

/-- Annotations are read from their member alone. -/
theorem annotsOf_pruneMembers {keys : List String} (hkeys : "annots" ∈ keys)
    (entries : List (String × Json)) : annotsOf (pruneMembers keys entries) = annotsOf entries := by
  rw [annotsOf, annotsOf, lookup_pruneMembers, if_pos hkeys]
  cases lookup "annots" entries with
  | none => rfl
  | some value =>
    cases value with
    | array items => exact mapM_readString_pruneAll .annotNotString items
    | null | bool | number | string | members => rfl

/-- A literal is read from the one member that it has. -/
theorem literal?_pruneMembers (entries : List (String × Json)) :
    literal? (pruneMembers (formKeys entries) entries) = literal? entries := by
  cases hint : lookup "int" entries <;> cases hstring : lookup "string" entries <;>
    cases hbytes : lookup "bytes" entries <;>
    simp [literal?, formKeys, lookup_pruneMembers, hint, hstring, hbytes, readString_prune]

/-- An object that is no literal is read as a primitive. -/
theorem formKeys_of_literal?_eq_none {entries : List (String × Json)}
    (h : literal? entries = none) : formKeys entries = ["prim", "args", "annots"] := by
  rw [literal?] at h
  split at h
  · cases h
  · cases h
  · cases h
  · next hint hstring hbytes => simp only [formKeys, hint, hstring, hbytes]

/-! ### Respelled values -/

mutual

/-- The values are alike up to the spelling of the literals in them, lists of arguments or
annotations that are empty, and the order of members. -/
inductive Respelled : Json → Json → Prop
  | array {items others : List Json} (each : List.Forall₂ Respelled items others) :
    Respelled (.array items) (.array others)
  | members {entries others : List (String × Json)}
    (each : ∀ key, RespelledMember key (lookup key entries) (lookup key others)) :
    Respelled (.members entries) (.members others)

/-- The values of one key, either of which may be missing, are alike up to spelling. -/
inductive RespelledMember : String → Option Json → Option Json → Prop
  | same {key : String} {value : Option Json} : RespelledMember key value value
  /-- An integer is written in decimal digits, behind a minus sign if it is negative. -/
  | int {text : String} {value : Int} (numeral : Numeral.spacedInteger? text = some value) :
    RespelledMember "int" (some (.string text)) (some (.string (toString value)))
  /-- Bytes are written in lower case. -/
  | bytes {text : String} :
    RespelledMember "bytes" (some (.string text)) (some (.string (text.map Char.toLower)))
  | args {items others : List Json} (each : List.Forall₂ Respelled items others) :
    RespelledMember "args" (some (.array items)) (some (.array others))
  /-- An empty list is left out. -/
  | empty {key : String} (list : key = "args" ∨ key = "annots") :
    RespelledMember key (some (.array [])) none

end

/-- Only an empty list is left out. -/
theorem RespelledMember.of_none {key : String} {value : Option Json}
    (h : RespelledMember key value none) : value = none ∨ value = some (.array []) := by
  cases h with
  | same => exact .inl rfl
  | empty => exact .inr rfl

/-! ### Literals -/

/-- An object that is read by one key is written with that key alone. -/
theorem respelled_of_formKeys_eq {entries : List (String × Json)} {key : String} {value : Json}
    (hkeys : formKeys entries = [key])
    (hmember : RespelledMember key ((lookup key entries).map prune) (some value)) :
    Respelled (prune (.members entries)) (.object [(key, value)]) := by
  obtain ⟨sorted, hobject, hlookup⟩ := exists_object_eq_members [(key, value)]
  rw [prune, hkeys, hobject]
  refine .members fun k => ?_
  rw [lookup_pruneMembers, hlookup, List.reverse_singleton, lookup_cons, lookup_nil]
  by_cases hk : k = key
  · subst hk
    rw [if_pos (by simp), if_pos rfl]
    exact hmember
  · rw [if_neg (by simpa using hk), if_neg (Ne.symm hk)]
    exact .same

/-- A literal is read from its own member, and written as that member, respelled. -/
theorem literal_kept {entries : List (String × Json)} {node : Micheline}
    (h : literal? entries = some (.ok node)) :
    ofJson (prune (.members entries)) = .ok node ∧
      Respelled (prune (.members entries)) node.toJson := by
  have hread : ofJson (prune (.members entries)) = .ok node := by
    rw [prune]
    exact ofJson_members_eq_ok_iff.mpr (.inl (by rw [literal?_pruneMembers, h]))
  refine ⟨hread, ?_⟩
  rw [literal?] at h
  split at h
  · next value _ _ hint =>
    have hkeys : formKeys entries = ["int"] := by simp only [formKeys, hint]
    obtain ⟨text, htext, h⟩ := Outcome.bind_eq_ok_iff.mp (Option.some.inj h)
    split at h
    · next n hn =>
      cases h
      refine respelled_of_formKeys_eq hkeys ?_
      rw [hint, eq_of_readString htext]
      exact .int hn
    · cases h
  · next value _ hint hstring =>
    have hkeys : formKeys entries = ["string"] := by simp only [formKeys, hint, hstring]
    obtain ⟨text, htext, h⟩ := Outcome.bind_eq_ok_iff.mp (Option.some.inj h)
    cases h
    refine respelled_of_formKeys_eq hkeys ?_
    rw [hstring, eq_of_readString htext]
    exact .same
  · next value hint hstring hbytes =>
    have hkeys : formKeys entries = ["bytes"] := by simp only [formKeys, hint, hstring, hbytes]
    obtain ⟨text, htext, h⟩ := Outcome.bind_eq_ok_iff.mp (Option.some.inj h)
    obtain ⟨content, hcontent, h⟩ := Outcome.bind_eq_ok_iff.mp h
    cases h
    have hwrites : text.map Char.toLower = Hex.encode content :=
      Hex.writes_of_decode (Outcome.mapError_eq_ok_iff.mp hcontent)
    refine respelled_of_formKeys_eq hkeys ?_
    rw [hbytes, eq_of_readString htext, ← hwrites]
    exact .bytes
  · cases h

/-! ### Primitives -/

/-- The annotations of an object are kept as they stand, unless there are none. -/
theorem respelled_annots {entries : List (String × Json)} {annots : List String}
    (h : annotsOf entries = .ok annots) :
    RespelledMember "annots" ((lookup "annots" entries).map prune)
      (unlessEmpty (annots.map .string)) := by
  rw [annotsOf] at h
  split at h
  · next hnone =>
    cases h
    rw [hnone]
    exact .same
  · next items hitems =>
    have hstrings : items = annots.map .string := by
      rw [Outcome.mapM_eq_ok_iff] at h
      exact List.forall₂_eq_eq_eq ▸ (List.forall₂_map_right_iff.mpr
        (h.imp fun _ _ hread => eq_of_readString hread))
    rw [hitems, hstrings, Option.map_some, prune, pruneAll_strings]
    cases annots with
    | nil => exact .empty (.inr rfl)
    | cons annot rest => exact .same
  · cases h

/-- Arguments are looked for behind members of other keys. -/
theorem argsOf_cons_of_ne {key : String} {value : Json} {rest : List (String × Json)}
    (hkey : key ≠ "args") : argsOf ((key, value) :: rest) = argsOf rest := by
  rw [argsOf_eq, argsOf_eq, lookup_cons, if_neg hkey]

/-- The list of arguments is kept item by item, unless it is empty. -/
theorem respelledMember_args {items others : List Json}
    (each : List.Forall₂ Respelled items others) :
    RespelledMember "args" (some (.array items)) (unlessEmpty others) := by
  cases each with
  | nil => exact .empty (.inl rfl)
  | cons hitem hrest => exact .args (.cons hitem hrest)

/-- A primitive is read from its three members, and written with them. -/
theorem prim_kept {entries : List (String × Json)} {name : String} {args : List Micheline}
    {annots : List String} (hliteral : literal? entries = none)
    (hprim : lookup "prim" entries = some (.string name))
    (hargs : argsOf (pruneMembers ["prim", "args", "annots"] entries) = .ok args)
    (hrespelled : RespelledMember "args" ((lookup "args" entries).map prune)
      (unlessEmpty (toJsonAll args)))
    (hannots : annotsOf entries = .ok annots) :
    ofJson (prune (.members entries)) = .ok (prim name args annots) ∧
      Respelled (prune (.members entries)) (prim name args annots).toJson := by
  have hkeys := formKeys_of_literal?_eq_none hliteral
  have hnone := literal?_pruneMembers entries
  rw [hkeys, hliteral] at hnone
  have hname : lookup "prim" (pruneMembers ["prim", "args", "annots"] entries) =
      some (.string name) := by
    rw [lookup_pruneMembers, if_pos (by simp), hprim]
    rfl
  have hread : annotsOf (pruneMembers ["prim", "args", "annots"] entries) = .ok annots := by
    rw [annotsOf_pruneMembers (by simp), hannots]
  rw [prune, hkeys]
  refine ⟨ofJson_members_eq_ok_iff.mpr
    (.inr ⟨hnone, name, args, annots, hname, hargs, hread, rfl⟩), ?_⟩
  obtain ⟨others, hwritten, hprimWritten, hargsWritten, hannotsWritten, hothers⟩ :=
    exists_toJson_prim_eq name args annots
  rw [hwritten]
  refine .members fun key => ?_
  by_cases hkey : key ∈ ["prim", "args", "annots"]
  · obtain rfl | rfl | rfl : key = "prim" ∨ key = "args" ∨ key = "annots" := by
      simpa using hkey
    · rw [hname, hprimWritten]
      exact .same
    · rw [lookup_pruneMembers, if_pos hkey, hargsWritten]
      exact hrespelled
    · rw [lookup_pruneMembers, if_pos hkey, hannotsWritten]
      exact respelled_annots hannots
  · rw [lookup_pruneMembers, if_neg hkey, hothers key hkey]
    exact .same

-- The recursion is the one of reading: through items, and along members up to the arguments. The
-- keys are free in the last part, as members before the arguments may be passed over or not.
mutual

/-- The tree of a value is read from the value without the members that are passed over as well,
and written as that value, respelled. -/
theorem kept_of_ofJson : (value : Json) → (node : Micheline) → ofJson value = .ok node →
    ofJson (prune value) = .ok node ∧ Respelled (prune value) node.toJson
  | .array items, node, h => by
    rw [ofJson] at h
    obtain ⟨nodes, hnodes, h⟩ := Outcome.bind_eq_ok_iff.mp h
    cases h
    obtain ⟨hread, heach⟩ := kept_of_ofJsonAll items nodes hnodes
    rw [prune, ofJson, toJson, hread]
    exact ⟨rfl, .array heach⟩
  | .members entries, node, h => by
    obtain hliteral | ⟨hliteral, name, args, annots, hprim, hargs, hannots, rfl⟩ :=
      ofJson_members_eq_ok_iff.mp h
    · exact literal_kept hliteral
    · obtain ⟨hread, hrespelled⟩ :=
        kept_of_argsOf entries args hargs ["prim", "args", "annots"] (by simp)
      exact prim_kept hliteral hprim hread hrespelled hannots
  | .null, _, h | .bool _, _, h | .number _, _, h | .string _, _, h => by
    simp [ofJson] at h

/-- The trees of values are read and written the same way. -/
theorem kept_of_ofJsonAll : (items : List Json) → (nodes : List Micheline) →
    ofJsonAll items = .ok nodes → ofJsonAll (pruneAll items) = .ok nodes ∧
      List.Forall₂ Respelled (pruneAll items) (toJsonAll nodes)
  | [], nodes, h => by
    rw [ofJsonAll] at h
    cases h
    exact ⟨rfl, .nil⟩
  | item :: rest, nodes, h => by
    rw [ofJsonAll] at h
    obtain ⟨node, hnode, h⟩ := Outcome.bind_eq_ok_iff.mp h
    obtain ⟨others, hothers, h⟩ := Outcome.bind_eq_ok_iff.mp h
    cases h
    obtain ⟨hfirst, hitem⟩ := kept_of_ofJson item node hnode
    obtain ⟨hread, heach⟩ := kept_of_ofJsonAll rest others hothers
    rw [pruneAll, ofJsonAll, toJsonAll, hfirst, hread]
    exact ⟨rfl, .cons hitem heach⟩

/-- The arguments of an object are read from their member, and written item by item, unless there
are none. -/
theorem kept_of_argsOf : (entries : List (String × Json)) → (args : List Micheline) →
    argsOf entries = .ok args → ∀ keys, "args" ∈ keys →
      argsOf (pruneMembers keys entries) = .ok args ∧
        RespelledMember "args" ((lookup "args" entries).map prune) (unlessEmpty (toJsonAll args))
  | [], args, h, _, _ => by
    rw [argsOf] at h
    cases h
    exact ⟨rfl, .same⟩
  | (key, value) :: rest, args, h, keys, hkeys => by
    rw [pruneMembers, lookup_cons]
    by_cases hkey : key = "args"
    · subst hkey
      rw [if_pos hkeys, if_pos rfl]
      match value, h with
      | .array items, h =>
        rw [argsOf, if_pos rfl] at h
        obtain ⟨hread, heach⟩ := kept_of_ofJsonAll items args h
        rw [prune, argsOf, if_pos rfl]
        exact ⟨hread, respelledMember_args heach⟩
    · rw [argsOf_cons_of_ne hkey] at h
      obtain ⟨hread, hrespelled⟩ := kept_of_argsOf rest args h keys hkeys
      rw [if_neg hkey]
      refine ⟨?_, hrespelled⟩
      split
      · rw [argsOf_cons_of_ne hkey, hread]
      · exact hread

end

/-! ### What is lost and what is kept -/

/-- A member beside a literal is passed over: the value is read, and written without it. -/
theorem member_beside_literal_lost :
    ofJson (.members [("annots", .array [.string "%x"]), ("int", .string "1")]) = .ok (.int 1) ∧
      ¬ Respelled (.members [("annots", .array [.string "%x"]), ("int", .string "1")])
        (Micheline.int 1).toJson := by
  refine ⟨rfl, fun h => ?_⟩
  cases h with
  | members each =>
    have hannots : RespelledMember "annots" (some (.array [.string "%x"])) none := each "annots"
    simpa using hannots.of_none

/-- A tree is read from the members of the form as which each object is read, and nothing of these
is lost: they are written again, respelled. -/
theorem form_members_kept {value : Json} {node : Micheline} (h : ofJson value = .ok node) :
    ofJson (prune value) = .ok node ∧ Respelled (prune value) node.toJson :=
  kept_of_ofJson value node h

/-- A pair whose parts are respelled, beside members that are passed over. -/
theorem form_members_kept_pair :
    let value := Json.members [
      ("args", .array [.members [("int", .string "+0_07")], .members [("bytes", .string "0A")],
        .members [("args", .array []), ("prim", .string "Unit"), ("type", .null)]]),
      ("note", .bool true), ("prim", .string "Pair")]
    let node := Micheline.prim "Pair" [.int 7, .bytes [10], .prim "Unit" [] []] []
    ofJson value = .ok node ∧ ofJson (prune value) = .ok node ∧
      Respelled (prune value) node.toJson :=
  ⟨rfl, form_members_kept rfl⟩

end TezosWallet.Micheline
