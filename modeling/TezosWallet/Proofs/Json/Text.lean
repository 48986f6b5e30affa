import Mathlib.Data.String.Basic
import TezosWallet.Json.Parser
import TezosWallet.Json.Printer

/-!
# JSON texts are read back

The one-line form of a value is read as the value, with anything after it left over, if no number
is in it and arrays and objects do not nest deeper than they may. The length of the form bounds
every loop of the reader, so the loops never run out.

## Main definitions

* `Json.Numberless` — values without numbers whose objects have their keys in order.
* `Json.nesting` — how deep arrays and objects nest.

## Main results

* `Json.numberless_object` — an object of members in any order has its keys in order.
* `Json.string?_escaped` — a string is read from between its quotation marks.
* `Json.value?_render` — a value is read from the front of its form.
* `Json.parse?_render` — a text that is nothing but the form.
-/

namespace TezosWallet.Json

/-! ### Values that are read back -/

mutual

/-- There is no number in the value, and its objects have their keys in increasing order. -/
def Numberless : Json → Prop
  | number _ => False
  | array items => NumberlessItems items
  | members entries => (entries.map (·.1)).Pairwise (· < ·) ∧ NumberlessMembers entries
  | _ => True

/-- There is no number in the items of an array. -/
def NumberlessItems : List Json → Prop
  | [] => True
  | item :: rest => Numberless item ∧ NumberlessItems rest

/-- There is no number in the members of an object. -/
def NumberlessMembers : List (String × Json) → Prop
  | [] => True
  | (_, value) :: rest => Numberless value ∧ NumberlessMembers rest

end

mutual

/-- How deep arrays and objects nest in a value. -/
def nesting : Json → Nat
  | array items => nestingItems items + 1
  | members entries => nestingMembers entries + 1
  | _ => 0

/-- How deep arrays and objects nest in the items of an array. -/
def nestingItems : List Json → Nat
  | [] => 0
  | item :: rest => max (nesting item) (nestingItems rest)

/-- How deep arrays and objects nest in the members of an object. -/
def nestingMembers : List (String × Json) → Nat
  | [] => 0
  | (_, value) :: rest => max (nesting value) (nestingMembers rest)

end

theorem numberlessItems_iff {items : List Json} :
    NumberlessItems items ↔ ∀ item ∈ items, item.Numberless := by
  induction items with
  | nil => simp [NumberlessItems]
  | cons item rest ih => simp [NumberlessItems, ih]

theorem numberlessMembers_iff {entries : List (String × Json)} :
    NumberlessMembers entries ↔ ∀ entry ∈ entries, entry.2.Numberless := by
  induction entries with
  | nil => simp [NumberlessMembers]
  | cons entry rest ih => simp [NumberlessMembers, ih]

/-! ### Objects -/

section Objects

variable {key : String} {value : Json} {entries acc : List (String × Json)}

theorem mem_insert {entry : String × Json} (h : entry ∈ insert key value entries) :
    entry = (key, value) ∨ entry ∈ entries := by
  induction entries with
  | nil => simpa [insert] using h
  | cons first rest ih =>
    rw [insert] at h
    split at h
    · simpa using h
    · split at h
      · exact (List.mem_cons.mp h).imp_right (List.mem_cons_of_mem _)
      · obtain rfl | h := List.mem_cons.mp h
        · exact .inr List.mem_cons_self
        · exact (ih h).imp_right (List.mem_cons_of_mem _)

/-- Putting in a member keeps the keys in order. -/
theorem pairwise_insert (h : (entries.map (·.1)).Pairwise (· < ·)) :
    ((insert key value entries).map (·.1)).Pairwise (· < ·) := by
  induction entries with
  | nil => simp [insert]
  | cons first rest ih =>
    obtain ⟨hfirst, hrest⟩ := List.pairwise_cons.mp h
    rw [insert]
    split
    · next hlt => exact List.pairwise_cons.mpr ⟨fun k hk => by
        obtain rfl | hk := List.mem_cons.mp hk
        · exact hlt
        · exact hlt.trans (hfirst k hk), h⟩
    · next hle =>
      split
      · next heq => exact heq ▸ h
      · next hne =>
        refine List.pairwise_cons.mpr ⟨fun k hk => ?_, ih hrest⟩
        obtain ⟨entry, hentry, rfl⟩ := List.mem_map.mp hk
        obtain rfl | hentry := mem_insert hentry
        · exact lt_of_le_of_ne (not_lt.mp hle) (Ne.symm hne)
        · exact hfirst _ (List.mem_map_of_mem hentry)

/-- An object of members without numbers has its keys in order, whatever order they are given
in. -/
theorem numberless_object (h : ∀ entry ∈ entries, entry.2.Numberless) :
    (object entries).Numberless := by
  have hfold (acc : List (String × Json)) (hacc : (acc.map (·.1)).Pairwise (· < ·))
      (hvalues : ∀ entry ∈ acc, entry.2.Numberless) :
      (members (entries.foldl (fun acc entry => insert entry.1 entry.2 acc) acc)).Numberless := by
    induction entries generalizing acc with
    | nil => exact ⟨hacc, numberlessMembers_iff.mpr hvalues⟩
    | cons first rest ih =>
      obtain ⟨hfirst, hrest⟩ := List.forall_mem_cons.mp h
      refine ih hrest _ (pairwise_insert hacc) fun entry hentry => ?_
      obtain rfl | hentry := mem_insert hentry
      · exact hfirst
      · exact hvalues entry hentry
  exact hfold [] .nil (by simp)

/-- A member behind all others is put in at the end. -/
theorem insert_of_forall_lt (h : ∀ entry ∈ entries, entry.1 < key) :
    insert key value entries = entries ++ [(key, value)] := by
  induction entries with
  | nil => rfl
  | cons first rest ih =>
    obtain ⟨hfirst, hrest⟩ := List.forall_mem_cons.mp h
    rw [insert, if_neg hfirst.not_gt, if_neg hfirst.ne', ih hrest, List.cons_append]

/-- The object of members whose keys are in order has them as they are. -/
theorem object_eq_members (h : (entries.map (·.1)).Pairwise (· < ·)) :
    object entries = members entries := by
  have hfold (acc : List (String × Json)) (hall : ((acc ++ entries).map (·.1)).Pairwise (· < ·)) :
      entries.foldl (fun acc entry => insert entry.1 entry.2 acc) acc = acc ++ entries := by
    induction entries generalizing acc with
    | nil => simp
    | cons first rest ih =>
      have hlast : ∀ entry ∈ acc, entry.1 < first.1 := fun entry hentry => by
        rw [List.map_append, List.pairwise_append] at hall
        exact hall.2.2 _ (List.mem_map_of_mem hentry) _ (by simp)
      rw [List.foldl_cons, insert_of_forall_lt hlast, ih (h.of_cons) _ (by simpa using hall),
        List.append_assoc, List.singleton_append]
  rw [object, hfold [] h, List.nil_append]

end Objects

/-! ### Strings -/

theorem hexDigit?_digitChar : ∀ n < 16, hexDigit? (Nat.digitChar n) = some n := by decide

theorem toList_escapeControl : ∀ n < 32, (escapeControl (Char.ofNat n)).toList =
    ['\\', 'u', '0', '0', Nat.digitChar (n / 16), Nat.digitChar (n % 16)] := by
  decide

/-- A control character is read from the number of its escape. -/
theorem unicodeEscape?_control {c : Char} (hc : c.toNat < 32) (rest : List Char) :
    unicodeEscape? ('0' :: '0' :: Nat.digitChar (c.toNat / 16) :: Nat.digitChar (c.toNat % 16) ::
      rest) = some (c, rest) := by
  have hzero : hexDigit? '0' = some 0 := rfl
  have hhigh := hexDigit?_digitChar (c.toNat / 16) (by omega)
  have hlow := hexDigit?_digitChar (c.toNat % 16) (by omega)
  have hquad : 4096 * 0 + 256 * 0 + 16 * (c.toNat / 16) + c.toNat % 16 = c.toNat := by omega
  simp only [unicodeEscape?, hexQuad?, hzero, hhigh, hlow, Option.bind_eq_bind, Option.bind_some,
    hquad]
  rw [if_neg (by omega), if_neg (by omega), Char.ofNat_toNat]

/-- A character stands for itself, or behind a backslash for what is read there. -/
theorem toList_escapeChar (c : Char) :
    ((escapeChar c).toList = [c] ∧ c ≠ '"' ∧ c ≠ '\\' ∧ 32 ≤ c.toNat) ∨
      ∃ code, (escapeChar c).toList = '\\' :: code ∧
        ∀ rest, escape? (code ++ rest) = some (c, rest) := by
  rw [escapeChar]
  split_ifs with hquote hbackslash hb hf hn hr ht hcontrol
  · exact .inr ⟨['"'], rfl, fun _ => by rw [eq_of_beq hquote]; rfl⟩
  · exact .inr ⟨['\\'], rfl, fun _ => by rw [eq_of_beq hbackslash]; rfl⟩
  · exact .inr ⟨['b'], rfl, fun _ => by rw [eq_of_beq hb]; rfl⟩
  · exact .inr ⟨['f'], rfl, fun _ => by rw [eq_of_beq hf]; rfl⟩
  · exact .inr ⟨['n'], rfl, fun _ => by rw [eq_of_beq hn]; rfl⟩
  · exact .inr ⟨['r'], rfl, fun _ => by rw [eq_of_beq hr]; rfl⟩
  · exact .inr ⟨['t'], rfl, fun _ => by rw [eq_of_beq ht]; rfl⟩
  · have hcode := toList_escapeControl c.toNat hcontrol
    rw [Char.ofNat_toNat] at hcode
    exact .inr ⟨_, hcode, fun rest => unicodeEscape?_control hcontrol rest⟩
  · exact .inl ⟨by simp, by simpa using hquote, by simpa using hbackslash,
      Nat.le_of_not_lt hcontrol⟩

/-- The characters between the quotation marks of a string. -/
def escaped (text : String) : List Char := text.toList.flatMap fun c => (escapeChar c).toList

theorem toList_quote (text : String) : (quote text).toList = '"' :: (escaped text ++ ['"']) := by
  rw [quote, String.toList_append, String.toList_append, String.toList_join, List.flatMap_map]
  rfl

theorem length_le_escaped (text : String) : text.length ≤ (escaped text).length := by
  rw [← String.length_toList, escaped]
  induction text.toList with
  | nil => simp
  | cons c cs ih =>
    have hpos : 0 < (escapeChar c).toList.length := by
      obtain ⟨hself, -⟩ | ⟨code, hcode, -⟩ := toList_escapeChar c
      · simp [hself]
      · simp [hcode]
    rw [List.flatMap_cons, List.length_append, List.length_cons]
    omega

/-- A character is read from its form inside a string. -/
theorem stringBody?_escapeChar (c : Char) (fuel : Nat) (rest : List Char) :
    stringBody? (fuel + 1) ((escapeChar c).toList ++ rest) =
      (stringBody? fuel rest).map fun read => (c :: read.1, read.2) := by
  obtain ⟨hself, hquote, hbackslash, hgraphic⟩ | ⟨code, hcode, hread⟩ := toList_escapeChar c
  · have hcontrol : ¬ c.toNat < 32 := by omega
    rw [hself, List.singleton_append, stringBody?, if_neg hcontrol]
    · cases stringBody? fuel rest <;> rfl
    · exact hquote
    · exact hbackslash
  · rw [hcode, List.cons_append, stringBody?, hread, Option.bind_eq_bind, Option.bind_some]
    dsimp only
    cases stringBody? fuel rest <;> rfl

theorem stringBody?_flatMap (cs rest : List Char) {fuel : Nat} (hfuel : cs.length < fuel) :
    stringBody? fuel (cs.flatMap (fun c => (escapeChar c).toList) ++ '"' :: rest) =
      some (cs, rest) := by
  induction cs generalizing fuel with
  | nil =>
    obtain ⟨fuel, rfl⟩ := Nat.exists_eq_add_one_of_ne_zero (Nat.ne_of_gt hfuel)
    rfl
  | cons c cs ih =>
    rw [List.length_cons] at hfuel
    obtain ⟨fuel, rfl⟩ := Nat.exists_eq_add_one_of_ne_zero (Nat.ne_of_gt (Nat.zero_lt_of_lt hfuel))
    rw [List.flatMap_cons, List.append_assoc, stringBody?_escapeChar,
      ih (Nat.lt_of_succ_lt_succ hfuel), Option.map_some]

/-- A string is read from behind its first quotation mark. -/
theorem string?_escaped (text : String) (rest : List Char) {limit : Nat}
    (hlimit : text.length < limit) :
    string? limit (escaped text ++ '"' :: rest) = some (text, rest) := by
  rw [string?, escaped, stringBody?_flatMap _ _ (by rwa [String.length_toList])]
  simp

/-! ### Values -/

/-- What is skipped in front of a character that is no space is nothing. -/
theorem skipSpace_cons {c : Char} (hc : isSpace c = false) (cs : List Char) :
    skipSpace (c :: cs) = c :: cs :=
  List.dropWhile_cons_of_neg (by simp [hc])

/-- The form of a value begins with neither a space nor the end of an array. -/
theorem exists_render_eq_cons {j : Json} (h : j.Numberless) :
    ∃ c cs, j.render.toList = c :: cs ∧ isSpace c = false ∧ c ≠ ']' := by
  cases j with
  | null => exact ⟨_, _, rfl, rfl, by decide⟩
  | bool value => cases value <;> exact ⟨_, _, rfl, rfl, by decide⟩
  | number value => exact h.elim
  | string value => exact ⟨_, _, toList_quote value, rfl, by decide⟩
  | array items =>
    exact ⟨'[', (renderItems items ++ "]").toList, by simp [render], rfl, by decide⟩
  | members entries =>
    exact ⟨'\x7b', (renderMembers entries ++ "\x7d").toList, by simp [render], rfl, by decide⟩

theorem length_render_pos {j : Json} (h : j.Numberless) : 0 < j.render.length := by
  obtain ⟨c, cs, hrender, -⟩ := exists_render_eq_cons h
  rw [← String.length_toList, hrender]
  exact Nat.succ_pos _

theorem renderItems_cons {item : Json} {rest : List Json} (h : rest ≠ []) :
    renderItems (item :: rest) = item.render ++ "," ++ renderItems rest := by
  cases rest with
  | nil => exact absurd rfl h
  | cons => rfl

theorem renderMembers_cons {key : String} {value : Json} {rest : List (String × Json)}
    (h : rest ≠ []) :
    renderMembers ((key, value) :: rest) =
      quote key ++ ":" ++ value.render ++ "," ++ renderMembers rest := by
  cases rest with
  | nil => exact absurd rfl h
  | cons => rfl

section Readers

variable {item : Reader Json} {limit depth : Nat}

theorem value?_quotationMark (cs : List Char) :
    value? limit depth ('"' :: cs) =
      (string? limit cs).map fun read => (string read.1, read.2) := by
  rw [Option.map_eq_bind]
  cases depth <;> rfl

theorem value?_bracket (cs : List Char) :
    value? limit (depth + 1) ('[' :: cs) = array? limit (value? limit depth) cs := rfl

theorem value?_brace (cs : List Char) :
    value? limit (depth + 1) ('\x7b' :: cs) = object? limit (value? limit depth) cs := rfl

/-- An array that does not end at once is its items. -/
theorem array?_cons {c : Char} (hspace : isSpace c = false) (hend : c ≠ ']') (cs : List Char) :
    array? limit item (c :: cs) =
      (items? item limit (c :: cs)).map fun read => (array read.1, read.2) := by
  unfold array?
  rw [skipSpace_cons hspace]
  split
  · next heq => exact absurd (List.cons.inj heq).1 hend
  · cases items? item limit (c :: cs) <;> rfl

/-- The last item stands in front of the end of its array. -/
theorem items?_last {cs rest : List Char} {value : Json} {fuel : Nat}
    (h : item cs = some (value, ']' :: rest)) :
    items? item (fuel + 1) cs = some ([value], rest) := by
  rw [items?, h]
  rfl

/-- An item in front of a comma is followed by other items. -/
theorem items?_more {cs rest : List Char} {value : Json} (fuel : Nat)
    (h : item cs = some (value, ',' :: rest)) :
    items? item (fuel + 1) cs =
      (items? item fuel rest).map fun read => (value :: read.1, read.2) := by
  rw [Option.map_eq_bind, items?, h]
  rfl

/-- The last member stands in front of the end of its object. -/
theorem members?_last {cs rest : List Char} {entry : String × Json} {fuel : Nat}
    (h : member? limit item cs = some (entry, '\x7d' :: rest)) :
    members? limit item (fuel + 1) cs = some ([entry], rest) := by
  rw [members?, h]
  rfl

/-- A member in front of a comma is followed by other members. -/
theorem members?_more {cs rest : List Char} {entry : String × Json} (fuel : Nat)
    (h : member? limit item cs = some (entry, ',' :: rest)) :
    members? limit item (fuel + 1) cs =
      (members? limit item fuel rest).map fun read => (entry :: read.1, read.2) := by
  rw [Option.map_eq_bind, members?, h]
  rfl

/-- An object that begins with a key is its members. -/
theorem object?_cons (cs : List Char) :
    object? limit item ('"' :: cs) =
      (members? limit item limit ('"' :: cs)).map fun read => (object read.1, read.2) := by
  rw [Option.map_eq_bind]
  rfl

/-- A member is read from its form if its value is. -/
theorem member?_quote {key : String} {value : Json} {rest : List Char}
    (hlimit : key.length < limit)
    (hvalue : item (value.render.toList ++ rest) = some (value, rest)) :
    member? limit item ((quote key).toList ++ ':' :: (value.render.toList ++ rest)) =
      some ((key, value), rest) := by
  have hquote : isSpace '"' = false := rfl
  have hcolon : isSpace ':' = false := rfl
  rw [toList_quote, List.cons_append, List.append_assoc, List.singleton_append, member?,
    skipSpace_cons hquote]
  simp only [string?_escaped key _ hlimit, Option.bind_eq_bind, Option.bind_some,
    skipSpace_cons hcolon, hvalue]

/-- Items that are read from their forms are read one after the other, up to the end of the
array. -/
theorem items?_renderItems {items : List Json} {fuel : Nat} (hne : items ≠ [])
    (hread : ∀ j ∈ items, ∀ rest, item (j.render.toList ++ rest) = some (j, rest))
    (hfuel : items.length ≤ fuel) (rest : List Char) :
    items? item fuel ((renderItems items).toList ++ ']' :: rest) = some (items, rest) := by
  induction items generalizing fuel with
  | nil => exact absurd rfl hne
  | cons j others ih =>
    obtain ⟨fuel, rfl⟩ := Nat.exists_eq_add_of_le' (Nat.le_trans (Nat.succ_pos _) hfuel)
    obtain ⟨hj, hothers⟩ := List.forall_mem_cons.mp hread
    rcases eq_or_ne others [] with rfl | hmore
    · exact items?_last (hj (']' :: rest))
    · have hlater := ih hmore hothers (Nat.le_of_succ_le_succ hfuel)
      have hfirst := items?_more fuel
        (hj (',' :: ((renderItems others).toList ++ ']' :: rest)))
      rw [renderItems_cons hmore]
      simp only [String.toList_append, List.append_assoc]
      refine hfirst.trans ?_
      rw [hlater, Option.map_some]

/-- Members whose values are read from their forms are read one after the other, up to the end of
the object. -/
theorem members?_renderMembers {entries : List (String × Json)} {fuel : Nat} (hne : entries ≠ [])
    (hread : ∀ entry ∈ entries, entry.1.length < limit ∧
      ∀ rest, item (entry.2.render.toList ++ rest) = some (entry.2, rest))
    (hfuel : entries.length ≤ fuel) (rest : List Char) :
    members? limit item fuel ((renderMembers entries).toList ++ '\x7d' :: rest) =
      some (entries, rest) := by
  induction entries generalizing fuel with
  | nil => exact absurd rfl hne
  | cons entry others ih =>
    obtain ⟨key, value⟩ := entry
    obtain ⟨fuel, rfl⟩ := Nat.exists_eq_add_of_le' (Nat.le_trans (Nat.succ_pos _) hfuel)
    obtain ⟨⟨hkey, hvalue⟩, hothers⟩ := List.forall_mem_cons.mp hread
    rcases eq_or_ne others [] with rfl | hmore
    · rw [renderMembers, String.toList_append, String.toList_append, List.append_assoc,
        List.append_assoc]
      exact members?_last (member?_quote hkey (hvalue _))
    · have hlater := ih hmore hothers (Nat.le_of_succ_le_succ hfuel)
      have hfirst := members?_more fuel (member?_quote hkey
        (hvalue (',' :: ((renderMembers others).toList ++ '\x7d' :: rest))))
      rw [renderMembers_cons hmore]
      simp only [String.toList_append, List.append_assoc]
      refine hfirst.trans ?_
      rw [hlater, Option.map_some]

end Readers

/-! ### Lengths and nesting of parts -/

theorem length_lt_quote (text : String) : text.length + 1 < (quote text).length := by
  have hle := length_le_escaped text
  rw [← String.length_toList (s := quote text), toList_quote, List.length_cons, List.length_append]
  exact Nat.succ_lt_succ (Nat.lt_succ_of_le hle)

theorem length_render_le_of_mem {j : Json} {items : List Json} (h : j ∈ items) :
    j.render.length ≤ (renderItems items).length := by
  induction items with
  | nil => cases h
  | cons first others ih =>
    rcases eq_or_ne others [] with rfl | hmore
    · rw [List.mem_singleton.mp h, renderItems]
    · rw [renderItems_cons hmore, String.length_append, String.length_append]
      obtain rfl | h := List.mem_cons.mp h
      · omega
      · have := ih h
        omega

/-- There are at least as many characters as items. -/
theorem length_le_renderItems {items : List Json} (h : NumberlessItems items) :
    items.length ≤ (renderItems items).length := by
  induction items with
  | nil => exact Nat.zero_le _
  | cons first others ih =>
    have hpos := length_render_pos h.1
    rcases eq_or_ne others [] with rfl | hmore
    · exact hpos
    · have := ih h.2
      rw [renderItems_cons hmore, String.length_append, String.length_append, List.length_cons]
      omega

theorem nesting_le_of_mem {j : Json} {items : List Json} (h : j ∈ items) :
    j.nesting ≤ nestingItems items := by
  induction items with
  | nil => cases h
  | cons first others ih =>
    obtain rfl | h := List.mem_cons.mp h
    · exact Nat.le_max_left _ _
    · exact (ih h).trans (Nat.le_max_right _ _)

theorem length_member_le_of_mem {entry : String × Json} {entries : List (String × Json)}
    (h : entry ∈ entries) :
    (quote entry.1).length + entry.2.render.length ≤ (renderMembers entries).length := by
  induction entries with
  | nil => cases h
  | cons first others ih =>
    obtain ⟨key, value⟩ := first
    rcases eq_or_ne others [] with rfl | hmore
    · rw [List.mem_singleton.mp h, renderMembers, String.length_append, String.length_append]
      dsimp only
      omega
    · rw [renderMembers_cons hmore]
      simp only [String.length_append]
      obtain rfl | h := List.mem_cons.mp h
      · dsimp only
        omega
      · have := ih h
        omega

/-- There are at least as many characters as members. -/
theorem length_le_renderMembers (entries : List (String × Json)) :
    entries.length ≤ (renderMembers entries).length := by
  induction entries with
  | nil => exact Nat.zero_le _
  | cons first others ih =>
    obtain ⟨key, value⟩ := first
    have hkey := length_lt_quote key
    rcases eq_or_ne others [] with rfl | hmore
    · rw [renderMembers, String.length_append, List.length_singleton, String.length_append]
      omega
    · rw [renderMembers_cons hmore]
      simp only [String.length_append, List.length_cons]
      omega

theorem nesting_le_of_mem_members {entry : String × Json} {entries : List (String × Json)}
    (h : entry ∈ entries) : entry.2.nesting ≤ nestingMembers entries := by
  induction entries with
  | nil => cases h
  | cons first others ih =>
    obtain rfl | h := List.mem_cons.mp h
    · exact Nat.le_max_left _ _
    · exact (ih h).trans (Nat.le_max_right _ _)

/-- The form of items begins as the form of the first one does. -/
theorem exists_renderItems_eq_cons {item : Json} (others : List Json) (h : item.Numberless) :
    ∃ c cs, (renderItems (item :: others)).toList = c :: cs ∧ isSpace c = false ∧ c ≠ ']' := by
  obtain ⟨c, cs, hrender, hspace, hend⟩ := exists_render_eq_cons h
  cases others with
  | nil => exact ⟨c, cs, hrender, hspace, hend⟩
  | cons other more =>
    refine ⟨c, cs ++ ("," ++ renderItems (other :: more)).toList, ?_, hspace, hend⟩
    rw [renderItems_cons (List.cons_ne_nil other more), String.append_assoc, String.toList_append,
      hrender, List.cons_append]

/-- The form of members begins with the quotation mark of the first key. -/
theorem exists_renderMembers_eq_cons (key : String) (value : Json)
    (others : List (String × Json)) :
    ∃ cs, (renderMembers ((key, value) :: others)).toList = '"' :: cs := by
  cases others with
  | nil => exact ⟨_, by rw [renderMembers, String.append_assoc, String.toList_append, toList_quote,
      List.cons_append]⟩
  | cons other more =>
    exact ⟨_, by rw [renderMembers_cons (List.cons_ne_nil other more), String.append_assoc,
      String.append_assoc, String.append_assoc, String.toList_append, toList_quote,
      List.cons_append]⟩

/-! ### Values read back -/

section Values

variable {limit depth : Nat}

theorem value?_string {text : String} (hlimit : text.length < limit) (rest : List Char) :
    value? limit depth ((quote text).toList ++ rest) = some (string text, rest) := by
  rw [toList_quote, List.cons_append, List.append_assoc, List.singleton_append,
    value?_quotationMark, string?_escaped text rest hlimit, Option.map_some]

/-- An array is read if its items are. -/
theorem value?_array {items : List Json} (h : NumberlessItems items)
    (hlimit : (renderItems items).length ≤ limit)
    (hread : ∀ j ∈ items, ∀ rest, value? limit depth (j.render.toList ++ rest) = some (j, rest))
    (rest : List Char) :
    value? limit (depth + 1) ((array items).render.toList ++ rest) = some (array items, rest) := by
  have hform : (array items).render.toList ++ rest =
      '[' :: ((renderItems items).toList ++ ']' :: rest) := by
    simp [render]
  rw [hform, value?_bracket]
  cases items with
  | nil => rfl
  | cons j others =>
    have hitems := items?_renderItems (List.cons_ne_nil j others) hread
      ((length_le_renderItems h).trans hlimit) rest
    obtain ⟨c, cs, hbegin, hspace, hend⟩ := exists_renderItems_eq_cons others h.1
    rw [hbegin, List.cons_append] at hitems ⊢
    rw [array?_cons hspace hend, hitems, Option.map_some]

/-- An object is read if its members are. -/
theorem value?_members {entries : List (String × Json)}
    (h : (entries.map (·.1)).Pairwise (· < ·)) (hlimit : (renderMembers entries).length ≤ limit)
    (hread : ∀ entry ∈ entries, entry.1.length < limit ∧
      ∀ rest, value? limit depth (entry.2.render.toList ++ rest) = some (entry.2, rest))
    (rest : List Char) :
    value? limit (depth + 1) ((members entries).render.toList ++ rest) =
      some (members entries, rest) := by
  have hform : (members entries).render.toList ++ rest =
      '\x7b' :: ((renderMembers entries).toList ++ '\x7d' :: rest) := by
    simp [render]
  rw [hform, value?_brace]
  cases entries with
  | nil => rfl
  | cons entry others =>
    have hmembers := members?_renderMembers (List.cons_ne_nil entry others) hread
      ((length_le_renderMembers _).trans hlimit) rest
    obtain ⟨cs, hbegin⟩ := exists_renderMembers_eq_cons entry.1 entry.2 others
    rw [hbegin, List.cons_append] at hmembers ⊢
    rw [object?_cons, hmembers, Option.map_some, object_eq_members h]

end Values

/-- A value without numbers is read from the front of its form, whatever follows, if it nests no
deeper than the reader may go. -/
theorem value?_render {limit : Nat} : (depth : Nat) → (j : Json) → j.Numberless →
    j.render.length ≤ limit → j.nesting ≤ depth → (rest : List Char) →
      value? limit depth (j.render.toList ++ rest) = some (j, rest)
  | _, null, _, _, _, _ => by
    rw [value?]
    rfl
  | _, bool true, _, _, _, _ | _, bool false, _, _, _, _ => by
    rw [value?]
    rfl
  | _, number _, h, _, _, _ => h.elim
  | _, string text, _, hlimit, _, rest => by
    have hlength := length_lt_quote text
    rw [render] at hlimit
    exact value?_string (by omega) rest
  -- The parts of a value nest less deep than the value, so the depth left carries the induction.
  | 0, array _, _, _, hdepth, _ | 0, members _, _, _, hdepth, _ =>
    absurd hdepth (Nat.not_succ_le_zero _)
  | depth + 1, array items, h, hlimit, hdepth, rest => by
    have hlength : (renderItems items).length ≤ limit := by
      rw [render, String.length_append, String.length_append] at hlimit
      omega
    exact value?_array h hlength (fun j hj => value?_render depth j (numberlessItems_iff.mp h j hj)
      ((length_render_le_of_mem hj).trans hlength)
      ((nesting_le_of_mem hj).trans (Nat.le_of_succ_le_succ hdepth))) rest
  | depth + 1, members entries, h, hlimit, hdepth, rest => by
    have hlength : (renderMembers entries).length ≤ limit := by
      rw [render, String.length_append, String.length_append] at hlimit
      omega
    refine value?_members h.1 hlength (fun entry hentry => ?_) rest
    have hkey := length_lt_quote entry.1
    have hmember := length_member_le_of_mem hentry
    exact ⟨by omega, value?_render depth entry.2 (numberlessMembers_iff.mp h.2 entry hentry)
      (by omega) ((nesting_le_of_mem_members hentry).trans (Nat.le_of_succ_le_succ hdepth))⟩

/-- A text that is nothing but the form of a value is read as the value. -/
theorem parse?_render {j : Json} (h : j.Numberless) (hdepth : j.nesting ≤ maxDepth) :
    parse? j.render = some j := by
  have hread := value?_render maxDepth j h (Nat.le_refl j.render.length) hdepth []
  rw [List.append_nil] at hread
  rw [parse?, hread]
  rfl

end TezosWallet.Json
