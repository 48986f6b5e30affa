import TezosWallet.Proofs.Base58
import TezosWallet.Mnemonic

/-!
# The places of the English words

The words of the list are made of lower-case letters and follow each other in alphabetical order,
so no word stands at two places, and the place of a word is found again from the word.

Both facts are read off one pass over the list that compares the ranks of neighbours. The rank of
a word is the number of its bytes, and is zero for what is not a word.

## Main definitions

* `Mnemonic.rank` — the number that orders words of up to eight letters.
* `Mnemonic.Ascending` — lists whose ranks go up.

## Main results

* `Mnemonic.length_wordList` — there are 2048 words.
* `Mnemonic.lowercase_of_mem_wordList` — the letters of the words.
* `Mnemonic.place?_wordList` — the place of a word.
-/

namespace TezosWallet.Mnemonic

/-! ### Ranks -/

/-- The number of lower-case letters behind the number of those in front of them, and zero if
another byte is among them. -/
def lettersFrom (n : Nat) : Bytes → Nat
  | [] => n
  | b :: rest =>
    if Nat.ble 97 b.toNat && Nat.ble b.toNat 122 then lettersFrom (n * 256 + b.toNat) rest else 0

/-- The place of a word in the alphabetical order of words of up to eight letters. -/
def rank (word : Bytes) : Nat := lettersFrom 0 word * Nat.pow 256 (8 - word.length)

/-- Whether the ranks of words go up from a number on. -/
def ascendingFrom (last : Nat) : List Bytes → Bool
  | [] => true
  | word :: rest =>
    match rank word with
    | 0 => false
    | n + 1 => Nat.ble last n && ascendingFrom (n + 1) rest

theorem lowercase_of_lettersFrom {n : Nat} {word : Bytes} (h : lettersFrom n word ≠ 0) :
    ∀ b ∈ word, 97 ≤ b.toNat ∧ b.toNat ≤ 122 := by
  induction word generalizing n with
  | nil => simp
  | cons b rest ih =>
    rw [lettersFrom] at h
    split at h
    · next hb =>
      simp only [Bool.and_eq_true, Nat.ble_eq] at hb
      intro c hc
      rcases List.mem_cons.mp hc with rfl | hc
      · exact hb
      · exact ih h c hc
    · exact absurd rfl h

/-- What has a rank is a word: it has bytes, all of them lower-case letters. -/
theorem lowercase_of_rank {word : Bytes} (h : rank word ≠ 0) :
    word ≠ [] ∧ ∀ b ∈ word, 97 ≤ b.toNat ∧ b.toNat ≤ 122 := by
  refine ⟨?_, lowercase_of_lettersFrom (Nat.ne_zero_of_mul_ne_zero_left h)⟩
  rintro rfl
  exact h (Nat.zero_mul _)

/-- Each word of a list that ascends from a number on is above that number, and above the words in
front of it. -/
theorem pairwise_of_ascendingFrom {last : Nat} {words : List Bytes}
    (h : ascendingFrom last words = true) :
    (∀ word ∈ words, last < rank word) ∧ words.Pairwise (fun v w => rank v < rank w) := by
  induction words generalizing last with
  | nil => simp
  | cons word rest ih =>
    rw [ascendingFrom] at h
    split at h
    · cases h
    · next n hrank =>
      rw [Bool.and_eq_true, Nat.ble_eq] at h
      obtain ⟨hlast, hrest⟩ := h
      obtain ⟨habove, hpairwise⟩ := ih hrest
      refine ⟨fun w hw => ?_, List.pairwise_cons.mpr ⟨fun w hw => ?_, hpairwise⟩⟩
      · rcases List.mem_cons.mp hw with rfl | hw
        · omega
        · exact (Nat.lt_of_le_of_lt hlast (Nat.lt_succ_self n)).trans (habove w hw)
      · rw [hrank]
        exact habove w hw

/-! ### The list -/

theorem ascending_wordList : ascendingFrom 0 (wordList.toList.map Bytes.utf8) = true := by
  decide +kernel

/-- There are 2048 words. -/
theorem length_wordList : wordList.toList.length = 2048 := by
  decide +kernel

/-- The words of the list have letters, all of them of the lower case. -/
theorem lowercase_of_mem_wordList {word : String} (hword : word ∈ wordList.toList) :
    word ≠ "" ∧ ∀ c ∈ word.toList, 97 ≤ c.toNat ∧ c.toNat ≤ 122 := by
  have hrank := (pairwise_of_ascendingFrom ascending_wordList).1 _ (List.mem_map_of_mem hword)
  obtain ⟨hne, hbytes⟩ := lowercase_of_rank hrank.ne'
  refine ⟨fun h => hne (h ▸ rfl), fun c hc => ?_⟩
  rw [Bytes.utf8_eq_flatMap] at hbytes
  by_cases hascii : c.toNat < 128
  · have hc' := hbytes (UInt8.ofNat c.toNat) (List.mem_flatMap.mpr
      ⟨c, hc, by rw [Bytes.utf8EncodeChar_of_ascii hascii]; exact List.mem_singleton_self _⟩)
    rwa [Bytes.toNat_byte (by omega)] at hc'
  · obtain ⟨b, rest, hencode, hb⟩ := Base58.utf8EncodeChar_of_not_ascii hascii
    have hb' := (hbytes b (List.mem_flatMap.mpr ⟨c, hc, hencode ▸ List.mem_cons_self⟩)).2
    omega

/-- No word stands at two places. -/
theorem nodup_wordList : wordList.toList.Nodup := by
  have hpairwise := (pairwise_of_ascendingFrom ascending_wordList).2
  rw [List.pairwise_map] at hpairwise
  refine hpairwise.imp fun {v w} hlt heq => ?_
  rw [heq] at hlt
  exact Nat.lt_irrefl _ hlt

/-- What stands at a place of the list. -/
theorem getD_wordList {n : Nat} (hn : n < wordList.toList.length) :
    wordList.getD n "" = wordList.toList[n] := by
  rw [Array.length_toList] at hn
  rw [Array.getElem_toList, Array.getD_eq_getD_getElem?, Array.getElem?_eq_getElem hn,
    Option.getD_some]

theorem getD_mem_wordList {n : Nat} (hn : n < 2048) : wordList.getD n "" ∈ wordList.toList := by
  rw [getD_wordList (length_wordList ▸ hn)]
  exact List.getElem_mem _

/-- The place of a word is found again from the word. -/
theorem place?_wordList {n : Nat} (hn : n < 2048) : place? (wordList.getD n "") = some n := by
  have hlist : ∀ word, place? word = wordList.toList.idxOf? word :=
    fun word => List.idxOf?_toArray word wordList.toList
  have hn' : n < wordList.toList.length := length_wordList ▸ hn
  rw [hlist, getD_wordList hn', List.idxOf?_eq_some_iff]
  refine ⟨hn', rfl, fun m hm heq => ?_⟩
  have := (nodup_wordList.getElem_inj_iff).mp heq
  omega

end TezosWallet.Mnemonic
