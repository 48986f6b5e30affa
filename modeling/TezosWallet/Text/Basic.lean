/-!
# Tags, blanks and words

Written identifiers begin with a readable tag, such as `tz1` or `edsk`. Tags are compared
character by character, and error messages quote the first few characters of a text.

Texts typed by people carry stray blanks. A character is blank when Unicode gives it the
`White_Space` property; the zero-width space and the byte order mark are not blank.

## Main definitions

* `Text.hasTag` — whether a text begins with a tag.
* `Text.lead` — the first characters of a text.
* `Text.isBlank` — the `White_Space` property.
* `Text.trim` — a text without the blanks around it.
* `Text.words` — the maximal runs of characters that are not blank.

## Main results

* `Text.words_append_space` — the first of several words.
-/

namespace TezosWallet.Text

/-! ### Tags -/

/-- Whether a text begins with the characters of `tag`. -/
def hasTag (tag text : String) : Bool := tag.toList.isPrefixOf text.toList

/-- Whether a text begins with one of the given tags. -/
def hasTagAmong (tags : List String) (text : String) : Bool := tags.any (hasTag · text)

/-- The first `n` characters of a text. -/
def lead (n : Nat) (text : String) : String := String.ofList (text.toList.take n)

/-! ### Blanks -/

/-- Whether a character has the Unicode property `White_Space`. -/
def isBlank (c : Char) : Bool :=
  let n := c.toNat
  (0x09 ≤ n && n ≤ 0x0D) || n == 0x20 || n == 0x85 || n == 0xA0 || n == 0x1680 ||
    (0x2000 ≤ n && n ≤ 0x200A) || n == 0x2028 || n == 0x2029 || n == 0x202F || n == 0x205F ||
    n == 0x3000

/-- A text without its leading and trailing blanks. -/
def trim (text : String) : String :=
  String.ofList ((text.toList.dropWhile isBlank).reverse.dropWhile isBlank).reverse

/-- The words of a character list: `current` holds the word being read, last character first. -/
private def wordsFrom (current : List Char) : List Char → List (List Char)
  | [] => if current.isEmpty then [] else [current.reverse]
  | c :: rest =>
    if isBlank c then
      if current.isEmpty then wordsFrom [] rest else current.reverse :: wordsFrom [] rest
    else wordsFrom (c :: current) rest

/-- The words of a text: its maximal runs of characters that are not blank. -/
def words (text : String) : List String := (wordsFrom [] text.toList).map String.ofList

private theorem wordsFrom_append (current rest : List Char) {word : List Char}
    (hword : ∀ c ∈ word, isBlank c = false) :
    wordsFrom current (word ++ rest) = wordsFrom (word.reverse ++ current) rest := by
  induction word generalizing current with
  | nil => rfl
  | cons c word ih =>
    have hc : isBlank c = false := hword c (by simp)
    rw [List.cons_append, wordsFrom, hc, if_neg Bool.false_ne_true,
      ih _ fun d hd => hword d (List.mem_cons_of_mem c hd), List.reverse_cons, List.append_assoc,
      List.singleton_append]

/-- A word that stands alone is the only one. -/
theorem words_of_notBlank {word : String} (hne : word ≠ "")
    (hword : ∀ c ∈ word.toList, isBlank c = false) : words word = [word] := by
  have hread := wordsFrom_append [] [] hword
  have hcurrent : (word.toList.reverse ++ []).isEmpty = false := by simpa using hne
  rw [List.append_nil, wordsFrom, hcurrent, if_neg Bool.false_ne_true, List.append_nil,
    List.reverse_reverse] at hread
  rw [words, hread, List.map_singleton, String.ofList_toList]

/-- A space ends the word in front of it. -/
theorem words_append_space {word : String} (hne : word ≠ "")
    (hword : ∀ c ∈ word.toList, isBlank c = false) (rest : String) :
    words (word ++ " " ++ rest) = word :: words rest := by
  have hcurrent : (word.toList.reverse ++ []).isEmpty = false := by simpa using hne
  have htext : (word ++ " " ++ rest).toList = word.toList ++ ' ' :: rest.toList := by
    rw [String.toList_append, String.toList_append, List.append_assoc]
    rfl
  have hspace : isBlank ' ' = true := by decide
  rw [words, htext, wordsFrom_append [] _ hword, wordsFrom, hspace, if_pos rfl, hcurrent,
    if_neg Bool.false_ne_true, List.append_nil, List.reverse_reverse, List.map_cons,
    String.ofList_toList, words]

end TezosWallet.Text
