import TezosWallet.Proofs.CommandLine.Generate
import TezosWallet.Proofs.Key.AcceptedText
import TezosWallet.Proofs.Operation.Signing

/-!
# Blanks around a secret

All readers of secrets take the blanks off a text before they look at it. Which of them reads the
text of a choice is settled earlier, by how the text begins as it was given. So blanks behind a text
never matter, and those in front of it do not if the secret is in the clear. In front of an
encrypted secret they hide the tag: the text then goes to the reader of secrets in the clear, which
finds the tag behind the blanks and refuses it, whatever the password.

## Main results

* `Key.hasTagAmong_trim_of_ofSecretText` — no encrypted secret is read as one in the clear.
* `KeyChoice.load_secret_append` — where blanks do not matter.
* `KeyChoice.load_secret_hidden` — what happens where they do.
* `KeyChoice.load_secret_blanks` — both, for all texts and blanks.
-/

namespace TezosWallet

variable {text before after : String}

theorem Curve.plain_encryptedSecretTags : ∀ tag ∈ encryptedSecretTags, Text.Plain tag := by
  simp [encryptedSecretTags, Text.Plain, Text.isBlank]

/-! ### Texts in the clear -/

namespace Key

theorem hasTagAmong_seedText (key : Key) :
    Text.hasTagAmong Curve.encryptedSecretTags key.seedText = false := by
  obtain ⟨tail, -, htext⟩ := Version.encode_eq_append (v := .edskSeed) key.secret.length_toBytes
  rw [← seedText] at htext
  simp only [Text.hasTagAmong, Text.hasTag, htext]
  rfl

theorem hasTagAmong_shortText (key : Key) :
    Text.hasTagAmong Curve.encryptedSecretTags key.shortText = false := by
  obtain ⟨⟨tail, htext⟩, -⟩ := key.shortText_readable
  simp only [Text.hasTagAmong, Text.hasTag, htext]
  rfl

/-- No text that begins like an encrypted secret, behind its blanks, is read as one in the clear. -/
theorem hasTagAmong_trim_of_ofSecretText {named : Option Curve} {key : Key}
    (h : ofSecretText text named = .ok key) :
    Text.hasTagAmong Curve.encryptedSecretTags (Text.trim text) = false := by
  obtain ⟨-, payload, htext, hbytes⟩ := ofSecretText_eq_ok_iff_payload.mp h
  obtain hsecret | ⟨-, hseed | hshort⟩ := text_cases htext hbytes
  · rw [hsecret, key.hasTagAmong_secretText]
  · rw [hseed, key.hasTagAmong_seedText]
  · rw [hshort, key.hasTagAmong_shortText]

theorem ofSecretText_append (hbefore : Text.AllBlank before) (hafter : Text.AllBlank after)
    (text : String) (named : Option Curve) :
    ofSecretText (before ++ text ++ after) named = ofSecretText text named := by
  rw [ofSecretText, Text.trim_append hbefore hafter, ofSecretText]

theorem ofEncryptedText_append (hbefore : Text.AllBlank before) (hafter : Text.AllBlank after)
    (text password : String) :
    ofEncryptedText (before ++ text ++ after) password = ofEncryptedText text password := by
  rw [ofEncryptedText, Text.trim_append hbefore hafter, ofEncryptedText]

end Key

/-- Trimming does not hide how a text begins. -/
theorem Curve.hasTagAmong_trim (h : Text.hasTagAmong encryptedSecretTags text = true) :
    Text.hasTagAmong encryptedSecretTags (Text.trim text) = true := by
  obtain ⟨before, after, hbefore, hafter, htext⟩ := Text.exists_append_trim text
  rw [← htext, Text.hasTagAmong_append_iff plain_encryptedSecretTags hbefore hafter] at h
  exact h.2

namespace CommandLine.KeyChoice

/-! ### Loading a secret between blanks -/

/-- Blanks do not matter behind a secret, and around one that does not begin like an encrypted one.
-/
theorem load_secret_append (hbefore : Text.AllBlank before) (hafter : Text.AllBlank after)
    (h : before = "" ∨ Text.hasTagAmong Curve.encryptedSecretTags text = false)
    (password : Option String) (around : Surroundings) :
    load ⟨.secret (before ++ text ++ after), password⟩ around =
      load ⟨.secret text, password⟩ around := by
  have htag : Text.hasTagAmong Curve.encryptedSecretTags (before ++ text ++ after) =
      Text.hasTagAmong Curve.encryptedSecretTags text := by
    rw [Bool.eq_iff_iff,
      Text.hasTagAmong_append_iff Curve.plain_encryptedSecretTags hbefore hafter]
    rcases h with h | h <;> simp [h]
  simp only [load, htag, Key.ofSecretText_append hbefore hafter,
    Key.ofEncryptedText_append hbefore hafter]

/-- An encrypted secret behind blanks is taken for one in the clear, and refused. -/
theorem load_secret_hidden (hbefore : Text.AllBlank before) (hafter : Text.AllBlank after)
    (hne : before ≠ "") (htag : Text.hasTagAmong Curve.encryptedSecretTags text = true)
    (password : Option String) (around : Surroundings) :
    ∃ fault, Key.ofSecretText text none = .error fault ∧
      load ⟨.secret (before ++ text ++ after), password⟩ around = .error (.loading fault) := by
  have hhidden : ¬ Text.hasTagAmong Curve.encryptedSecretTags (before ++ text ++ after) = true := by
    rw [Text.hasTagAmong_append_iff Curve.plain_encryptedSecretTags hbefore hafter]
    exact fun h => hne h.1
  cases hread : Key.ofSecretText text none with
  | ok key =>
    have hclear := Key.hasTagAmong_trim_of_ofSecretText hread
    rw [Curve.hasTagAmong_trim htag] at hclear
    cases hclear
  | error fault =>
    refine ⟨fault, rfl, ?_⟩
    simp only [load, if_neg hhidden, Key.ofSecretText_append hbefore hafter, hread,
      Outcome.mapError_error, Outcome.error_bind]

/-- Blanks behind a secret do not matter, nor do those in front of it unless it begins like an
encrypted one. Blanks in front of such a text make it one that no password opens: the reader of
secrets in the clear refuses it. -/
theorem load_secret_blanks (text before after : String) (password : Option String)
    (around : Surroundings) (hbefore : Text.AllBlank before) (hafter : Text.AllBlank after) :
    (before = "" ∨ Text.hasTagAmong Curve.encryptedSecretTags text = false →
      load ⟨.secret (before ++ text ++ after), password⟩ around =
        load ⟨.secret text, password⟩ around) ∧
    (before ≠ "" → Text.hasTagAmong Curve.encryptedSecretTags text = true →
      ∃ fault, Key.ofSecretText text none = .error fault ∧
        load ⟨.secret (before ++ text ++ after), password⟩ around = .error (.loading fault)) :=
  ⟨fun h => load_secret_append hbefore hafter h password around,
    fun hne htag => load_secret_hidden hbefore hafter hne htag password around⟩

/-- A line end behind an encrypted secret, and a space in front of it. -/
theorem load_secret_blanks_edesk :
    let text :=
      "edesk1fddn27MaLcQVEdZpAYiyGQNm6UjtWiBfNP2ZenTy3CFsoSVJgeHM9pP9cvLJ2r5Xp2quQ5mYexW1LRKee2"
    load ⟨.secret ("" ++ text ++ "\n"), none⟩ (quiet none) = .error .lockedSecret ∧
      load ⟨.secret (" " ++ text ++ ""), some "password12345##"⟩ (quiet none) =
        .error (.loading (.notIdentifier .wrongVersion)) := by
  intro text
  have hspace : Text.AllBlank " " := by simp [Text.AllBlank, Text.isBlank]
  have hline : Text.AllBlank "\n" := by simp [Text.AllBlank, Text.isBlank]
  have hread : Key.ofSecretText text none = .error (.notIdentifier .wrongVersion) := by
    decide +kernel
  have htag : Text.hasTagAmong Curve.encryptedSecretTags text = true := by decide +kernel
  obtain ⟨fault, hfault, hload⟩ := (load_secret_blanks text " " "" (some "password12345##")
    (quiet none) hspace Text.allBlank_empty).2 (by decide) htag
  obtain rfl := Except.error.inj (hfault.symm.trans hread)
  refine ⟨?_, hload⟩
  rw [(load_secret_blanks text "" "\n" none (quiet none) Text.allBlank_empty hline).1 (.inl rfl)]
  simp only [load, htag, if_true]
  rfl

/-- The key of the sample seed is loaded from its encrypted secret, and is not if a space stands in
front of it. -/
theorem load_secret_hidden_seedKey :
    let text := Sample.seedKey.encryptedText "password12345##" (.ofNatBE 8 0)
    Text.AllBlank " " ∧ Text.AllBlank "" ∧
      load ⟨.secret text, some "password12345##"⟩ (quiet none) = .ok (some Sample.seedKey) ∧
      load ⟨.secret (" " ++ text ++ ""), some "password12345##"⟩ (quiet none) ≠
        load ⟨.secret text, some "password12345##"⟩ (quiet none) := by
  intro text
  have hspace : Text.AllBlank " " := by simp [Text.AllBlank, Text.isBlank]
  have htag : Text.hasTagAmong Curve.encryptedSecretTags text = true :=
    Sample.seedKey.hasTagAmong_encryptedText _ _
  have hload : load ⟨.secret text, some "password12345##"⟩ (quiet none) =
      .ok (some Sample.seedKey) := load_encryptedText Sample.seedKey _ rfl
  obtain ⟨fault, -, hhidden⟩ := load_secret_hidden hspace Text.allBlank_empty (by decide) htag
    (some "password12345##") (quiet none)
  refine ⟨hspace, Text.allBlank_empty, hload, ?_⟩
  rw [hload, hhidden]
  intro h
  cases h

end CommandLine.KeyChoice

end TezosWallet
