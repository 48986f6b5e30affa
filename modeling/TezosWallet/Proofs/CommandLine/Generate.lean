import TezosWallet.Proofs.CommandLine.Describe
import TezosWallet.Proofs.Key.EncryptedText
import TezosWallet.Proofs.Key.Generate

/-!
# Generated keys are recovered from what is printed

The secret that is printed of a new key is one of two kinds, in the clear or encrypted, and its
first characters tell which: so it is loaded as what it is, under the same password if there is
one. A phrase that is printed is the one that the key was derived from, so deriving it again gives
the key. Whatever the random bytes were, a key that was generated can be shown from what was
printed of it.

## Main definitions

* `WritesSecret` — a text is the secret that is printed of a new key.

## Main results

* `newKey_spec`, `respond_generate` — what is generated, and what is printed of it.
* `respond_showSecret`, `respond_showMnemonic` — showing what was printed.
* `code_generate_ed25519` — runs that succeed whatever the random bytes are.
* `generated_key_recoverable` — showing a key from its printed secret and from its printed phrase.
-/

namespace TezosWallet

/-! ### Texts that are neither options nor taken for one another -/

/-- No digit of base 58 is a dash. -/
theorem Base58Check.isValue_encode (version payload : Bytes) :
    CommandLine.Level.isValue (Base58Check.encode version payload) = true := by
  refine CommandLine.Level.isValue_of_notMem fun hdash => ?_
  have halphabet : '-' ∉ Base58.alphabet := by decide
  exact halphabet (Base58.mem_alphabet_of_mem_encode hdash)

/-- A phrase has letters and spaces only. -/
theorem Mnemonic.isValue_toText {mnemonic : Mnemonic} (h : mnemonic.WellFormed) :
    CommandLine.Level.isValue mnemonic.toText = true := by
  refine CommandLine.Level.isValue_of_notMem fun hdash => ?_
  rcases Text.mem_of_mem_intercalate hdash with heq | ⟨word, hword, hdash⟩
  · exact absurd heq (by decide)
  · obtain ⟨place, hplace, rfl⟩ := List.mem_map.mp hword
    have hletter := (lowercase_of_mem_wordList (getD_mem_wordList (h.places _ hplace))).2 _ hdash
    exact absurd hletter.1 (by decide)

/-- A secret in the clear does not begin like an encrypted one. -/
theorem Key.hasTagAmong_secretText (key : Key) :
    Text.hasTagAmong Curve.encryptedSecretTags key.secretText = false := by
  obtain ⟨tail, -, htext⟩ := Version.encode_eq_append key.length_secretPayload
  rw [← Key.secretText] at htext
  simp only [Text.hasTagAmong, Text.hasTag, htext]
  cases key.curve <;> rfl

theorem Key.hasTagAmong_encryptedText (key : Key) (password : String) (salt : FixedBytes 8) :
    Text.hasTagAmong Curve.encryptedSecretTags (key.encryptedText password salt) = true := by
  have htag : key.curve.encryptedSecretVersion.tag ∈ Curve.encryptedSecretTags := by
    cases key.curve <;> decide
  exact List.any_eq_true.mpr ⟨_, htag, (key.encryptedText_readable password salt).1⟩

namespace CommandLine

variable {curve : Curve} {words : Option Nat} {encrypted : Bool} {password : Option String}
  {around later : Surroundings} {key : Key} {phrase : Option Mnemonic} {rest : Entropy}
  {secret : String}

/-! ### What is generated and printed -/

/-- A new key belongs to the curve that was asked for. It comes with a phrase exactly if a number
of words was asked for, and then the phrase has that number of words and gives the key. -/
theorem newKey_spec {passphrase : String} {entropy : Entropy}
    (h : Command.newKey curve words passphrase entropy = .ok (key, phrase, rest)) :
    key.curve = curve ∧ phrase.map (·.places.length) = words ∧
      ∀ mnemonic ∈ phrase, mnemonic.WellFormed ∧
        Key.ofMnemonic curve mnemonic.toText "" passphrase = .ok key := by
  cases words with
  | none =>
    obtain ⟨⟨generated, later⟩, hgenerate, h⟩ := Outcome.bind_eq_ok_iff.mp h
    cases h
    exact ⟨Key.curve_of_generate (Outcome.mapError_eq_ok_iff.mp hgenerate), rfl, by simp⟩
  | some count =>
    obtain ⟨⟨mnemonic, later⟩, hgenerate, h⟩ := Outcome.bind_eq_ok_iff.mp h
    obtain ⟨derived, hderive, h⟩ := Outcome.bind_eq_ok_iff.mp h
    cases h
    rw [Outcome.mapError_eq_ok_iff] at hgenerate hderive
    obtain ⟨hform, hcount⟩ := Mnemonic.wellFormed_of_generate hgenerate
    refine ⟨Key.curve_of_ofMnemonic hderive, congrArg some hcount, fun m hm => ?_⟩
    obtain rfl := Option.some.inj hm
    exact ⟨hform, hderive⟩

/-- A text is the written secret of a key: in the clear, or encrypted under the password that counts
and some salt. -/
inductive WritesSecret (key : Key) (password : Option String) : (encrypted : Bool) → String → Prop
  | clear : WritesSecret key password false key.secretText
  | encrypted {text : String} (htext : password = some text) (salt : FixedBytes 8) :
      WritesSecret key password true (key.encryptedText text salt)

theorem writesSecret_of_writeSecret {entropy : Entropy}
    (h : Command.writeSecret key encrypted password entropy = .ok secret) :
    WritesSecret key password encrypted secret := by
  cases encrypted with
  | false =>
    cases h
    exact .clear
  | true =>
    cases password with
    | none => cases h
    | some text =>
      obtain ⟨⟨written, later⟩, hencrypt, h⟩ := Outcome.bind_eq_ok_iff.mp h
      cases h
      obtain ⟨salt, -, rfl⟩ := Key.encrypt_eq_ok_iff.mp (Outcome.mapError_eq_ok_iff.mp hencrypt)
      exact .encrypted rfl salt

/-- A run succeeds only if a key is made and its secret is written. -/
theorem Command.exists_of_result_runGenerate
    (h : (runGenerate curve words encrypted password around).result = .ok ()) :
    ∃ key phrase rest secret,
      newKey curve words ((password.or around.password).getD "") around.entropy =
        .ok (key, phrase, rest) ∧
      writeSecret key encrypted (password.or around.password) rest = .ok secret := by
  obtain ⟨⟨key, phrase, rest⟩, hkey, h⟩ := Printing.result_ofResult_bind_eq_ok_iff.mp h
  obtain ⟨secret, hsecret, -⟩ := Printing.result_ofResult_bind_eq_ok_iff.mp h
  exact ⟨key, phrase, rest, secret, hkey, hsecret⟩

/-- Once a key is made and its secret is written, both are printed, and the phrase if there is
one. -/
theorem respond_generate {arguments : List String}
    (hparse : Command.parse arguments = .ok (.generate curve words encrypted password))
    (hkey : Command.newKey curve words ((password.or around.password).getD "") around.entropy =
      .ok (key, phrase, rest))
    (hsecret : Command.writeSecret key encrypted (password.or around.password) rest =
      .ok secret) :
    respond arguments around =
      { code := 0
        output := lines (keyLines key ++ ["Secret Key: " ++ secret] ++
          (phrase.map fun mnemonic => "Mnemonic:   " ++ mnemonic.toText).toList) } := by
  have hrun : Command.run (.generate curve words encrypted password) around =
      KeyReport.print ⟨key, some secret, phrase⟩ false := by
    simp only [Command.run, Command.runGenerate, hkey, hsecret, Printing.liftM_eq,
      Printing.ofResult_ok_bind]
  rw [respond_of_ok hparse (by rw [hrun, KeyReport.result_print]), hrun, KeyReport.printed_print]
  rfl

/-! ### Loading what was printed -/

/-- A key is loaded from its secret in the clear, whatever the password. -/
theorem load_secretText (key : Key) (given : Option String) (later : Surroundings) :
    KeyChoice.load ⟨.secret key.secretText, given⟩ later = .ok (some key) := by
  have hkey : Key.ofSecretText ("" ++ key.secretText ++ "") none = .ok key :=
    key.ofSecretText_secretText (by simp) Text.allBlank_empty Text.allBlank_empty
  rw [String.empty_append, String.append_empty] at hkey
  simp only [KeyChoice.load, key.hasTagAmong_secretText, Bool.false_eq_true, if_false, hkey,
    Outcome.mapError_ok, Outcome.ok_bind, Outcome.pure_eq_ok]

/-- A key is loaded from its encrypted secret under the password that it was encrypted with. -/
theorem load_encryptedText (key : Key) {text : String} (salt : FixedBytes 8) {given : Option String}
    (hgiven : given.or later.password = some text) :
    KeyChoice.load ⟨.secret (key.encryptedText text salt), given⟩ later = .ok (some key) := by
  have hkey := key.ofEncryptedText_encryptedText text salt Text.allBlank_empty Text.allBlank_empty
  rw [String.empty_append, String.append_empty] at hkey
  simp only [KeyChoice.load, key.hasTagAmong_encryptedText, if_true, hgiven, hkey,
    Outcome.mapError_ok, Outcome.ok_bind, Outcome.pure_eq_ok]

/-- A written secret is loaded as the key that it was written of. Only an encrypted one needs the
password. -/
theorem load_of_writesSecret {given : Option String}
    (hsecret : WritesSecret key password encrypted secret)
    (hgiven : encrypted = true → given.or later.password = password) :
    KeyChoice.load ⟨.secret secret, given⟩ later = .ok (some key) := by
  cases hsecret with
  | clear => exact load_secretText key given later
  | encrypted htext salt => exact load_encryptedText key salt ((hgiven rfl).trans htext)

/-- A written secret does not look like an option. -/
theorem isValue_of_writesSecret (hsecret : WritesSecret key password encrypted secret) :
    Level.isValue secret = true := by
  cases hsecret with
  | clear => exact Base58Check.isValue_encode _ _
  | encrypted htext salt => exact Base58Check.isValue_encode _ _

/-- The key of a phrase is loaded under the password that it was derived with. -/
theorem load_mnemonic {mnemonic : Mnemonic} {given : Option String}
    (hkey : Key.ofMnemonic curve mnemonic.toText "" (password.getD "") = .ok key)
    (hgiven : given.or later.password = password) :
    KeyChoice.load ⟨.mnemonic mnemonic.toText "" curve, given⟩ later = .ok (some key) := by
  simp only [KeyChoice.load, hgiven, hkey, Outcome.mapError_ok, Outcome.ok_bind,
    Outcome.pure_eq_ok]

theorem respond_showSecret {given : Option String}
    (hsecret : WritesSecret key password encrypted secret)
    (hgiven : encrypted = true → given.or later.password = password) :
    respond (showSecret secret given) later = shownKey key :=
  respond_describe (Command.parse_showSecret (isValue_of_writesSecret hsecret) given)
    (load_of_writesSecret hsecret hgiven)

theorem respond_showMnemonic {mnemonic : Mnemonic} {given : Option String}
    (hform : mnemonic.WellFormed)
    (hkey : Key.ofMnemonic curve mnemonic.toText "" (password.getD "") = .ok key)
    (hgiven : given.or later.password = password) :
    respond (showMnemonic mnemonic.toText curve given) later = shownKey key :=
  respond_describe (Command.parse_showMnemonic (Mnemonic.isValue_toText hform) curve given)
    (load_mnemonic hkey hgiven)

/-! ### Runs that succeed -/

/-- On Ed25519 a key is made of random bytes, and of a phrase with every admissible number of
words, unless the source of random bytes fails. -/
theorem exists_newKey_ed25519 (hwords : ∀ count ∈ words, Mnemonic.isCount count = true)
    (passphrase : String) {entropy : Entropy} (hsteady : entropy.Steady) :
    ∃ key phrase rest,
      Command.newKey .ed25519 words passphrase entropy = .ok (key, phrase, rest) ∧
        rest.Steady := by
  cases words with
  | none =>
    obtain ⟨key, rest, hgenerate, hrest⟩ := Key.exists_generate_ed25519 hsteady
    exact ⟨key, none, rest, Outcome.bind_eq_ok_iff.mpr
      ⟨(key, rest), Outcome.mapError_eq_ok_iff.mpr hgenerate, rfl⟩, hrest⟩
  | some count =>
    obtain ⟨bytes, rest, htake, hrest⟩ := hsteady.exists_take (Mnemonic.entropySize count)
    have hgenerate := Mnemonic.generate_eq_ok_iff.mpr ⟨hwords count rfl, bytes, htake, rfl⟩
    obtain ⟨key, hkey⟩ := Key.exists_ofMnemonic_ed25519
      (Mnemonic.wellFormed_of_generate hgenerate).1 "" passphrase
    let mnemonic := Mnemonic.ofEntropy count bytes.toBytes
    refine ⟨key, some mnemonic, rest, Outcome.bind_eq_ok_iff.mpr
      ⟨(mnemonic, rest), ?_, Outcome.bind_eq_ok_iff.mpr ⟨key, ?_, rfl⟩⟩, hrest⟩
    · exact Outcome.mapError_eq_ok_iff.mpr hgenerate
    · exact Outcome.mapError_eq_ok_iff.mpr hkey

/-- A secret is written if there is a password for it and a source of random bytes that does not
fail. -/
theorem exists_writeSecret (key : Key) (hsteady : rest.Steady)
    (hpassword : encrypted = true → password.isSome = true) :
    ∃ secret, Command.writeSecret key encrypted password rest = .ok secret := by
  cases encrypted with
  | false => exact ⟨_, rfl⟩
  | true =>
    obtain ⟨text, rfl⟩ := Option.isSome_iff_exists.mp (hpassword rfl)
    obtain ⟨salt, later, htake, -⟩ := hsteady.exists_take 8
    have hencrypt : key.encrypt text rest = .ok (key.encryptedText text salt, later) :=
      Key.encrypt_eq_ok_iff.mpr ⟨salt, htake, rfl⟩
    exact ⟨_, Outcome.bind_eq_ok_iff.mpr ⟨_, Outcome.mapError_eq_ok_iff.mpr hencrypt, rfl⟩⟩

/-- On Ed25519 generating a key succeeds, from random bytes and from a phrase with every admissible
number of words, if there is a password wherever the secret is to be encrypted and the source of
random bytes does not fail. -/
theorem code_generate_ed25519 {arguments : List String}
    (hparse : Command.parse arguments = .ok (.generate .ed25519 words encrypted password))
    (hwords : ∀ count ∈ words, Mnemonic.isCount count = true) (hsteady : around.entropy.Steady)
    (hpassword : encrypted = true → (password.or around.password).isSome = true) :
    (respond arguments around).code = 0 := by
  obtain ⟨key, phrase, rest, hkey, hrest⟩ := exists_newKey_ed25519 hwords
    ((password.or around.password).getD "") hsteady
  obtain ⟨secret, hsecret⟩ := exists_writeSecret key hrest hpassword
  rw [respond_generate hparse hkey hsecret]

/-! ### Recovery -/

/-- Whatever the random bytes are: a key that is generated with success can be shown again from
the secret printed of it, under the same password if it was encrypted, and from the phrase printed
of it, on the same curve and under the same password, if a number of words was asked for. The
phrase has that number of words. Moreover there is a phrase of each admissible number of words for
all random bytes, and it is accepted when it is read; only a source that gives no bytes is an
error. -/
theorem generated_key_recoverable :
    (∀ (arguments : List String) (around : Surroundings) (curve : Curve) (words : Option Nat)
        (encrypted : Bool) (password : Option String),
      Command.parse arguments = .ok (.generate curve words encrypted password) →
      (respond arguments around).code = 0 →
      ∃ (key : Key) (secret : String) (phrase : Option Mnemonic),
        respond arguments around =
          { code := 0
            output := lines (keyLines key ++ ["Secret Key: " ++ secret] ++
              (phrase.map fun mnemonic => "Mnemonic:   " ++ mnemonic.toText).toList) } ∧
        key.curve = curve ∧
        (∀ later given,
          (encrypted = true → given.or later.password = password.or around.password) →
            respond (showSecret secret given) later = shownKey key) ∧
        phrase.map (fun mnemonic => (Text.words mnemonic.toText).length) = words ∧
        ∀ mnemonic ∈ phrase, ∀ later given,
          given.or later.password = password.or around.password →
            respond (showMnemonic mnemonic.toText curve given) later = shownKey key) ∧
    ∀ count ∈ [12, 15, 18, 21, 24], ∀ entropy : Entropy,
      (∀ bytes rest, entropy.take (Mnemonic.entropySize count) = .ok (bytes, rest) →
        ∃ mnemonic, Mnemonic.generate count entropy = .ok (mnemonic, rest) ∧
          (Text.words mnemonic.toText).length = count ∧
          Mnemonic.ofText mnemonic.toText = .ok mnemonic) ∧
      ∀ cause, entropy.take (Mnemonic.entropySize count) = .error cause →
        Mnemonic.generate count entropy = .error (.random cause) := by
  constructor
  · intro arguments around curve words encrypted password hparse hcode
    obtain ⟨key, phrase, rest, secret, hkey, hsecret⟩ :=
      Command.exists_of_result_runGenerate (result_run_of_code_eq_zero hparse hcode)
    have hwritten := writesSecret_of_writeSecret hsecret
    obtain ⟨hcurve, hwords, hphrase⟩ := newKey_spec hkey
    refine ⟨key, secret, phrase, respond_generate hparse hkey hsecret, hcurve,
      fun later given hgiven => respond_showSecret hwritten hgiven, ?_,
      fun mnemonic hmnemonic later given hgiven =>
        respond_showMnemonic (hphrase mnemonic hmnemonic).1 (hphrase mnemonic hmnemonic).2 hgiven⟩
    rw [← hwords]
    exact Option.map_congr fun mnemonic hmnemonic =>
      Mnemonic.length_words_toText (hphrase mnemonic hmnemonic).1
  · intro count hcount entropy
    have hadmissible := Mnemonic.isCount_iff.mpr hcount
    refine ⟨fun bytes rest htake => ?_, fun cause htake =>
      Mnemonic.generate_of_take_eq_error hadmissible htake⟩
    have hgenerate := Mnemonic.generate_eq_ok_iff.mpr ⟨hadmissible, bytes, htake, rfl⟩
    obtain ⟨hform, hlength⟩ := Mnemonic.wellFormed_of_generate hgenerate
    exact ⟨_, hgenerate, (Mnemonic.length_words_toText hform).trans hlength,
      Mnemonic.ofText_toText hform⟩

/-- Arguments for an encrypted key from a phrase of twenty-four words. -/
def lockedPhraseArguments : List String :=
  ["generate", "--words", "24", "--encrypt", "--password=correct horse"]

/-- Surroundings without input, where every random byte is seven. -/
def quiet (password : Option String) : Surroundings where
  read := fun _ => .error (.stdin "closed")
  password := password
  entropy := .constant 7
  complaint := fun _ => "syntax error"

/-- An encrypted key from a phrase of twenty-four words: the secret is loaded under the password of
the session, and the phrase under the password in front of it. A key of random bytes, without a
password. A source that fails. -/
theorem generated_key_recoverable_lockedPhrase :
    Command.parse lockedPhraseArguments =
        .ok (.generate .ed25519 (some 24) true (some "correct horse")) ∧
      (respond lockedPhraseArguments (quiet none)).code = 0 ∧
      (∃ (key : Key) (secret : String) (mnemonic : Mnemonic),
        respond lockedPhraseArguments (quiet none) =
          { code := 0
            output := lines (keyLines key ++ ["Secret Key: " ++ secret] ++
              ["Mnemonic:   " ++ mnemonic.toText]) } ∧
        (Text.words mnemonic.toText).length = 24 ∧
        respond (showSecret secret none) (quiet (some "correct horse")) = shownKey key ∧
        respond (showMnemonic mnemonic.toText .ed25519 (some "correct horse")) (quiet none) =
          shownKey key) ∧
      (respond ["generate"] (quiet none)).code = 0 ∧
      (∃ (key : Key) (secret : String),
        respond ["generate"] (quiet none) =
          { code := 0, output := lines (keyLines key ++ ["Secret Key: " ++ secret]) } ∧
        respond (showSecret secret (some "of no use")) (quiet none) = shownKey key) ∧
      Mnemonic.generate 12 ⟨fun _ _ => .error "no device"⟩ = .error (.random "no device") := by
  obtain ⟨hrecover, hphrases⟩ := generated_key_recoverable
  have hsteady : (quiet none).entropy.Steady := Entropy.steady_constant 7
  have hlocked : Command.parse lockedPhraseArguments =
      .ok (.generate .ed25519 (some 24) true (some "correct horse")) := rfl
  have hlockedCode : (respond lockedPhraseArguments (quiet none)).code = 0 :=
    code_generate_ed25519 hlocked (by decide) hsteady fun _ => rfl
  have hplain : Command.parse ["generate"] = .ok (.generate .ed25519 none false none) := rfl
  have hplainCode : (respond ["generate"] (quiet none)).code = 0 :=
    code_generate_ed25519 hplain nofun hsteady nofun
  refine ⟨hlocked, hlockedCode, ?_, hplainCode, ?_, (hphrases 12 (by decide) _).2 _ rfl⟩
  · obtain ⟨key, secret, phrase, hrespond, -, hsecret, hwords, hmnemonic⟩ :=
      hrecover _ _ _ _ _ _ hlocked hlockedCode
    obtain ⟨mnemonic, rfl, hlength⟩ := Option.map_eq_some_iff.mp hwords
    exact ⟨key, secret, mnemonic, hrespond, hlength, hsecret _ _ fun _ => rfl,
      hmnemonic _ rfl _ _ rfl⟩
  · obtain ⟨key, secret, phrase, hrespond, -, hsecret, hwords, -⟩ :=
      hrecover _ _ _ _ _ _ hplain hplainCode
    obtain rfl := Option.map_eq_none_iff.mp hwords
    rw [Option.map_none, Option.toList_none, List.append_nil] at hrespond
    exact ⟨key, secret, hrespond, hsecret _ _ (by simp)⟩

end CommandLine

end TezosWallet
