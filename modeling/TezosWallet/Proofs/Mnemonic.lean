import TezosWallet.Proofs.Bytes
import TezosWallet.Proofs.Mnemonic.WordList
import TezosWallet.Proofs.Outcome
import TezosWallet.Proofs.Text.Blank

/-!
# Phrases are read back from their texts

The groups of eleven bits that a phrase is cut into recombine to the number of its bits, so the
checksum of a phrase of random bytes comes out right. Its words are words of the list, they are
told apart by the spaces between them, and each has one place. So the text of every well-formed
phrase is accepted, and gives the phrase.

## Main definitions

* `Mnemonic.WellFormed` — phrases with an admissible count, words of the list and a right checksum.

## Main results

* `Mnemonic.ofDigits_placesOf` — the number of a phrase's bits.
* `Mnemonic.wellFormed_ofEntropy` — random bytes give well-formed phrases.
* `Mnemonic.ofText_toText` — a well-formed phrase is read back from its text.
-/

namespace TezosWallet.Mnemonic

/-! ### Groups of eleven bits -/

@[simp] theorem length_placesOf (count n : Nat) : (placesOf count n).length = count := by
  induction count generalizing n with
  | zero => rfl
  | succ count ih => rw [placesOf, List.length_append, ih, List.length_singleton]

theorem lt_of_mem_placesOf {count n place : Nat} (h : place ∈ placesOf count n) :
    place < 2048 := by
  induction count generalizing n with
  | zero => cases h
  | succ count ih =>
    rw [placesOf, List.mem_append, List.mem_singleton] at h
    rcases h with h | rfl
    · exact ih h
    · exact Nat.mod_lt _ (by decide)

/-- The groups of a number recombine to its low bits. -/
theorem ofDigits_placesOf (count n : Nat) :
    Radix.ofDigits 2048 (placesOf count n).reverse = n % 2048 ^ count := by
  induction count generalizing n with
  | zero => rw [pow_zero, Nat.mod_one]; rfl
  | succ count ih =>
    rw [placesOf, List.reverse_append, List.reverse_singleton, List.singleton_append,
      Radix.ofDigits, ih, pow_succ', Nat.mod_mul]

/-! ### Counts of words -/

variable {count : Nat}

theorem isCount_iff : isCount count = true ↔ count ∈ [12, 15, 18, 21, 24] := by
  simp only [isCount, Bool.and_eq_true, decide_eq_true_eq, beq_iff_eq, List.mem_cons,
    List.not_mem_nil, or_false]
  omega

/-- The random bits and the checksum bits fill the groups exactly. -/
theorem bits_eq (hcount : isCount count = true) :
    8 * entropySize count + count / 3 = 11 * count := by
  have := isCount_iff.mp hcount
  simp only [List.mem_cons, List.not_mem_nil, or_false] at this
  rcases this with rfl | rfl | rfl | rfl | rfl <;> rfl

/-- The checksum has one bit for three words. -/
theorem checksum_lt (hcount : isCount count = true) (entropy : Bytes) :
    checksum count entropy < 2 ^ (count / 3) := by
  have hbits : count / 3 ≤ 8 := by
    simp only [isCount, Bool.and_eq_true, decide_eq_true_eq] at hcount
    omega
  have hbyte := Bytes.toNatBE_lt ((Sha256.digest entropy).toBytes.take 1)
  have hlength : ((Sha256.digest entropy).toBytes.take 1).length = 1 := by
    rw [List.length_take, FixedBytes.length_toBytes]
    rfl
  rw [hlength, pow_one] at hbyte
  refine Nat.div_lt_of_lt_mul (hbyte.trans_eq ?_)
  calc 256 = 2 ^ (8 - count / 3 + count / 3) := by rw [Nat.sub_add_cancel hbits]; rfl
    _ = 2 ^ (8 - count / 3) * 2 ^ (count / 3) := pow_add ..

/-! ### Phrases of random bytes -/

/-- A phrase of an admissible count, whose words are in the list and whose last bits are the
checksum of the others. -/
structure WellFormed (mnemonic : Mnemonic) : Prop where
  count : isCount mnemonic.places.length = true
  places : ∀ place ∈ mnemonic.places, place < 2048
  checks : checks mnemonic.places = true

/-- The bits of a phrase of random bytes, as a number, fill its groups. -/
theorem bits_lt (hcount : isCount count = true) {entropy : Bytes}
    (hsize : entropy.length = entropySize count) :
    Bytes.toNatBE entropy * 2 ^ (count / 3) + checksum count entropy < 2048 ^ count := by
  have hentropy := Bytes.toNatBE_lt entropy
  have hchecksum := checksum_lt hcount entropy
  rw [hsize] at hentropy
  calc Bytes.toNatBE entropy * 2 ^ (count / 3) + checksum count entropy
      < Bytes.toNatBE entropy * 2 ^ (count / 3) + 2 ^ (count / 3) := by omega
    _ = (Bytes.toNatBE entropy + 1) * 2 ^ (count / 3) := (Nat.succ_mul _ _).symm
    _ ≤ 256 ^ entropySize count * 2 ^ (count / 3) := Nat.mul_le_mul_right _ hentropy
    _ = 2 ^ (8 * entropySize count + count / 3) := by rw [pow_add, pow_mul]; rfl
    _ = 2048 ^ count := by rw [bits_eq hcount, pow_mul]; rfl

/-- Random bytes give a phrase that is well-formed. -/
theorem wellFormed_ofEntropy (hcount : isCount count = true) {entropy : Bytes}
    (hsize : entropy.length = entropySize count) : (ofEntropy count entropy).WellFormed where
  count := by rwa [ofEntropy, length_placesOf]
  places := fun _ => lt_of_mem_placesOf
  checks := by
    have hchecksum := checksum_lt hcount entropy
    have hnumber : Radix.ofDigits 2048 (ofEntropy count entropy).places.reverse =
        checksum count entropy + Bytes.toNatBE entropy * 2 ^ (count / 3) := by
      rw [ofEntropy, ofDigits_placesOf, Nat.pow_eq, Nat.mod_eq_of_lt (bits_lt hcount hsize),
        Nat.add_comm]
    have hlength : (ofEntropy count entropy).places.length = count := length_placesOf ..
    have hquot : (checksum count entropy + Bytes.toNatBE entropy * 2 ^ (count / 3)) /
        2 ^ (count / 3) = Bytes.toNatBE entropy := by
      rw [Nat.add_mul_div_right _ _ (Nat.two_pow_pos _), Nat.div_eq_of_lt hchecksum, Nat.zero_add]
    have hrest : (checksum count entropy + Bytes.toNatBE entropy * 2 ^ (count / 3)) %
        2 ^ (count / 3) = checksum count entropy := by
      rw [Nat.add_mul_mod_self_right, Nat.mod_eq_of_lt hchecksum]
    simp only [checks, hnumber, hlength, Nat.pow_eq, hquot, hrest, ← hsize,
      Bytes.ofNatBE_toNatBE, beq_self_eq_true]

/-! ### Texts -/

variable {mnemonic : Mnemonic}

/-- The words of a phrase have letters, none of which is a blank. -/
theorem notBlank_of_mem_words (h : mnemonic.WellFormed) :
    ∀ word ∈ mnemonic.words, word ≠ "" ∧ ∀ c ∈ word.toList, Text.isBlank c = false := by
  intro word hword
  obtain ⟨place, hplace, rfl⟩ := List.mem_map.mp hword
  obtain ⟨hne, hletters⟩ := lowercase_of_mem_wordList (getD_mem_wordList (h.places _ hplace))
  refine ⟨hne, fun c hc => ?_⟩
  have := hletters c hc
  exact Text.isBlank_of_graphic (by omega) (by omega)

/-- A phrase is cut into its words. -/
theorem words_toText (h : mnemonic.WellFormed) : Text.words mnemonic.toText = mnemonic.words :=
  Text.words_intercalate (notBlank_of_mem_words h)

theorem length_words_toText (h : mnemonic.WellFormed) :
    (Text.words mnemonic.toText).length = mnemonic.places.length := by
  rw [words_toText h, words, List.length_map]

theorem placesFrom_map {places : List Nat} (h : ∀ place ∈ places, place < 2048) (index : Nat) :
    placesFrom index (places.map fun n => wordList.getD n "") = .ok places := by
  induction places generalizing index with
  | nil => rfl
  | cons place rest ih =>
    have hplace := place?_wordList (h place (by simp))
    have hrest := ih (fun p hp => h p (List.mem_cons_of_mem _ hp)) (index + 1)
    simp only [List.map_cons, placesFrom, hplace, hrest, Outcome.ok_bind, Outcome.pure_eq_ok]

/-- A well-formed phrase is read back from its text. -/
theorem ofText_toText (h : mnemonic.WellFormed) : ofText mnemonic.toText = .ok mnemonic := by
  have hcount : isCount mnemonic.words.length = true := by
    rw [words, List.length_map]
    exact h.count
  have hread : placesFrom 0 mnemonic.words = .ok mnemonic.places := placesFrom_map h.places 0
  rw [ofText, words_toText h]
  cases hwords : mnemonic.words with
  | nil =>
    rw [hwords] at hcount
    cases hcount
  | cons first rest =>
    rw [hwords] at hcount hread
    have hfirst : place? first ≠ none := by
      intro hnone
      rw [placesFrom, hnone] at hread
      cases hread
    simp only [hcount, hread, h.checks, if_neg hfirst, Outcome.ok_bind, Outcome.pure_eq_ok,
      Bool.not_true, Bool.false_eq_true, if_false]

end TezosWallet.Mnemonic
