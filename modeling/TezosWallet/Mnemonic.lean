import TezosWallet.Hash.Hmac
import TezosWallet.Mnemonic.WordList
import TezosWallet.Arithmetic
import TezosWallet.Text.Basic

/-!
# Mnemonics

A mnemonic is a phrase of English words that stands for random bytes. The bits of the bytes and a
checksum of one bit per thirty-two are cut into groups of eleven, each of which picks a word.

## Main definitions

* `Mnemonic` — the places of a phrase's words, with count and checksum verified.
* `Mnemonic.ofText`, `Mnemonic.toText` — phrases.
* `Mnemonic.ofEntropy` — the phrase of random bytes.
* `Mnemonic.seed` — the key material of a phrase and a passphrase.
-/

namespace TezosWallet

/-- A phrase, as the places of its words in the list. -/
structure Mnemonic where
  places : List Nat

/-- Why a phrase is refused, or none can be made. -/
inductive MnemonicError
  /-- The phrase has a number of words that no phrase has. -/
  | wordCount (count : Nat)
  /-- The word at an index is not in the list. -/
  | unknownWord (index : Nat)
  /-- The last bits are not the checksum of the others. -/
  | wrongChecksum
  /-- A phrase of that many words was asked for. -/
  | unsupportedCount (count : Nat)
  deriving DecidableEq, Repr

/-- The wording of an error. -/
def MnemonicError.message : MnemonicError → String
  | .wordCount count =>
    s!"mnemonic has an invalid word count: {count}. Word count must be 12, 15, 18, 21, or 24"
  | .unknownWord index => s!"mnemonic contains an unknown word (word {index})"
  | .wrongChecksum => "the mnemonic has an invalid checksum"
  | .unsupportedCount count => s!"unsupported word count {count}"

namespace Mnemonic

/-- Whether phrases of that many words exist: twelve to twenty-four, a multiple of three. -/
def isCount (count : Nat) : Bool := 12 ≤ count && count ≤ 24 && count % 3 == 0

/-- The bytes that a phrase of that many words stands for. -/
def entropySize (count : Nat) : Nat := count * 4 / 3

/-- The checksum bits of the bytes of a phrase, one for three words, as a number. -/
def checksum (count : Nat) (entropy : Bytes) : Nat :=
  Bytes.toNatBE ((Sha256.digest entropy).toBytes.take 1) / Nat.pow 2 (8 - count / 3)

/-- The places of `count` words, first word first, that a number's groups of eleven bits are. -/
def placesOf : (count n : Nat) → List Nat
  | 0, _ => []
  | count + 1, n => placesOf count (n / 2048) ++ [n % 2048]

/-- The phrase of `count` words that random bytes give. -/
def ofEntropy (count : Nat) (entropy : Bytes) : Mnemonic :=
  ⟨placesOf count (Bytes.toNatBE entropy * Nat.pow 2 (count / 3) + checksum count entropy)⟩

/-- Whether the last bits of a phrase are the checksum of the others. -/
def checks (places : List Nat) : Bool :=
  let count := places.length
  let n := Radix.ofDigits 2048 places.reverse
  let entropy := Bytes.ofNatBE (entropySize count) (n / Nat.pow 2 (count / 3))
  n % Nat.pow 2 (count / 3) == checksum count entropy

/-- The place of a word in the list. -/
def place? (word : String) : Option Nat := wordList.idxOf? word

/-- The places of words, the first of which has the given index in its phrase. -/
def placesFrom (index : Nat) : List String → Except MnemonicError (List Nat)
  | [] => pure []
  | word :: rest =>
    match place? word with
    | none => .error (.unknownWord index)
    | some n => do
      let ns ← placesFrom (index + 1) rest
      pure (n :: ns)

/-- Reads a phrase. The first word is looked at before the words are counted. -/
def ofText (text : String) : Except MnemonicError Mnemonic := do
  let words := Text.words text
  match words with
  | [] => throw (.wordCount 0)
  | first :: _ =>
    if place? first = none then throw (.unknownWord 0)
    if !isCount words.length then throw (.wordCount words.length)
    let places ← placesFrom 0 words
    if !checks places then throw .wrongChecksum
    pure ⟨places⟩

/-- The words of a phrase. -/
def words (mnemonic : Mnemonic) : List String := mnemonic.places.map fun n => wordList.getD n ""

/-- A phrase, with single spaces between its words. -/
def toText (mnemonic : Mnemonic) : String := String.intercalate " " mnemonic.words

/-- The key material that a phrase and a passphrase give. -/
def seed (mnemonic : Mnemonic) (passphrase : String) : FixedBytes 64 :=
  Pbkdf2.deriveBlock (Bytes.utf8 mnemonic.toText) (Bytes.utf8 ("mnemonic" ++ passphrase)) 2048

end Mnemonic

end TezosWallet
