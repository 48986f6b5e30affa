import TezosWallet.Proofs.Key.Generate

/-!
# Which texts are read as a secret

A text is read under one version, which its curve and, on Ed25519, its length settle, and what it
holds is imported as raw bytes. The written secret of a key is read in this way, and on Ed25519 its
written seed. The length is looked at for the sake of the seed alone: a text of any other length
may hold whatever raw bytes are accepted. On Ed25519 these are also bare seeds, so that there is a
third text of a key, its seed under the version of the longer form. It begins with no tag and is
read only where the curve is given.

## Main definitions

* `Key.shortText` — the bare seed of a key under the version of the longer form.

## Main results

* `Key.shortText_readable` — its first character and its length.
* `Key.ofSecretText_eq_ok_iff` — the texts that are read as a key.
-/

namespace TezosWallet.Key

variable {text : String} {named : Option Curve} {key : Key}

/-- The raw bytes of a key are those that it is written with and, on Ed25519, its bare seed. -/
theorem ofBytes_curve_eq_ok_iff {payload : Bytes} :
    ofBytes key.curve payload = .ok key ↔
      payload = key.secretPayload ∨ key.curve = .ed25519 ∧ payload = key.secret.toBytes := by
  rw [ofBytes_eq_ok_iff, secretPayload]
  cases hcurve : key.curve <;> simp [or_comm]

/-! ### Texts of the wrong size -/

/-- The bare seed of a key, written under the version of a seed with its public key. -/
def shortText (key : Key) : String :=
  Base58Check.encode Version.edsk.bytes key.secret.toBytes

/-- A bare seed under the version of the longer form begins with a digit, and has one character more
than under its own version. -/
theorem shortText_readable (key : Key) :
    (∃ tail, key.shortText.toList = '3' :: tail) ∧ key.shortText.utf8ByteSize = 55 := by
  have hsize := key.secret.length_toBytes
  exact Base58Check.encode_eq_cons (d := 2) (k := 54) (Version.bytes_head? .edsk) (by decide)
    (by decide) (by rw [hsize]; decide +kernel) (by rw [hsize]; decide +kernel)

/-- The text tells no curve. -/
theorem ofText?_shortText (key : Key) : Curve.ofText? key.shortText = none := by
  obtain ⟨⟨tail, htext⟩, -⟩ := key.shortText_readable
  rw [Curve.ofText?]
  simp only [Text.hasTag, htext]
  rfl

theorem versionOfText_shortText (key : Key) (hcurve : key.curve = .ed25519) :
    versionOfText key.curve key.shortText = .edsk := by
  rw [versionOfText, key.shortText_readable.2, hcurve]
  rfl

/-- The lengths of the three texts differ. -/
theorem shortText_ne (key : Key) (hcurve : key.curve = .ed25519) :
    key.shortText ≠ key.secretText ∧ key.shortText ≠ key.seedText := by
  have hsecret : key.secretText.utf8ByteSize = 98 := by
    rw [secretText, Version.utf8ByteSize_encode key.length_secretPayload, hcurve]
    rfl
  have hseed : key.seedText.utf8ByteSize = 54 := by
    rw [seedText, Version.utf8ByteSize_encode key.secret.length_toBytes]
    rfl
  have hshort := key.shortText_readable.2
  exact ⟨ne_of_apply_ne String.utf8ByteSize (by rw [hshort, hsecret]; decide),
    ne_of_apply_ne String.utf8ByteSize (by rw [hshort, hseed]; decide)⟩

/-- Sixty-four bytes under the version of a seed have more characters than a seed. -/
theorem utf8ByteSize_encode_edskSeed {payload : Bytes} (hsize : payload.length = 64) :
    (Base58Check.encode Version.edskSeed.bytes payload).utf8ByteSize = 98 :=
  (Base58Check.encode_eq_cons (d := 11) (k := 97) (Version.bytes_head? .edskSeed) (by decide)
    (by decide) (by rw [hsize]; decide +kernel) (by rw [hsize]; decide +kernel)).2

/-! ### Accepted texts -/

/-- A text of raw bytes of a key, under the version that it is read under, is one of three. -/
theorem text_cases {payload : Bytes}
    (htext : text = Base58Check.encode (versionOfText key.curve text).bytes payload)
    (hbytes : ofBytes key.curve payload = .ok key) :
    text = key.secretText ∨
      key.curve = .ed25519 ∧ (text = key.seedText ∨ text = key.shortText) := by
  rw [versionOfText] at htext
  split at htext
  · next hseed =>
    obtain ⟨hcurve, hlength⟩ := hseed
    obtain rfl | ⟨-, rfl⟩ := ofBytes_curve_eq_ok_iff.mp hbytes
    · -- the text is too short for a seed with its public key
      have hsize : key.secretPayload.length = 64 := by rw [length_secretPayload, hcurve]; rfl
      rw [htext, utf8ByteSize_encode_edskSeed hsize] at hlength
      cases hlength
    · exact .inr ⟨hcurve, .inl htext⟩
  · obtain rfl | ⟨hcurve, rfl⟩ := ofBytes_curve_eq_ok_iff.mp hbytes
    · exact .inl htext
    · rw [hcurve] at htext
      exact .inr ⟨hcurve, .inr htext⟩

/-- Where the curve is given, the short text of a key is read as the key. -/
theorem ofSecretText_of_trim_eq_shortText (hcurve : key.curve = .ed25519)
    (htext : Text.trim text = key.shortText) : ofSecretText text (some .ed25519) = .ok key := by
  rw [ofSecretText_eq_ok_iff_payload, htext, key.versionOfText_shortText hcurve, hcurve]
  exact ⟨rfl, _, rfl, hcurve ▸ key.ofBytes_secret⟩

/-- A text is read as a key exactly if, between its blanks, it is the written secret of the key or,
on Ed25519, its written seed, and the curve is left open or named. On Ed25519, where the curve is
named, the seed is also read under the version of the longer form. -/
theorem ofSecretText_eq_ok_iff (text : String) (named : Option Curve) (key : Key) :
    ofSecretText text named = .ok key ↔
      named ∈ [none, some key.curve] ∧ (Text.trim text = key.secretText ∨
        key.curve = .ed25519 ∧ Text.trim text = key.seedText) ∨
      named = some .ed25519 ∧ key.curve = .ed25519 ∧ Text.trim text = key.shortText := by
  constructor
  · rw [ofSecretText_eq_ok_iff_payload]
    rintro ⟨htold, payload, htext, hbytes⟩
    have hnamed : named ∈ [none, some key.curve] := by
      obtain rfl | ⟨rfl, -⟩ := Option.or_eq_some_iff.mp htold <;> simp
    obtain hsecret | ⟨hcurve, hseed | hshort⟩ := text_cases htext hbytes
    · exact .inl ⟨hnamed, .inl hsecret⟩
    · exact .inl ⟨hnamed, .inr ⟨hcurve, hseed⟩⟩
    · rw [hshort, ofText?_shortText, Option.or_none, hcurve] at htold
      exact .inr ⟨htold, hcurve, hshort⟩
  · rintro (⟨hnamed, htext | ⟨hcurve, htext⟩⟩ | ⟨rfl, hcurve, htext⟩)
    · rw [ofSecretText_eq_ok_iff_payload, htext, key.versionOfText_secretText]
      exact ⟨key.or_ofText?_secretText hnamed, _, rfl, key.ofBytes_secretPayload⟩
    · rw [ofSecretText_eq_ok_iff_payload, htext, key.versionOfText_seedText hcurve]
      exact ⟨key.or_ofText?_seedText hcurve hnamed, _, rfl, key.ofBytes_secret⟩
    · exact ofSecretText_of_trim_eq_shortText hcurve htext

/-- The sample seed under the version of the longer form is read, and is neither of the two written
forms of its key. -/
theorem ofSecretText_accepts_shortText :
    let text := "3BhDJrpK1RzRxnw7ghayR5ox48xGC3eTLbazhcHkXB7EpQoBZpnXCms"
    ∃ key : Key, key.curve = .ed25519 ∧ key.secret = Sample.secret .ed25519 ∧
      ofSecretText text (some .ed25519) = .ok key ∧
      Text.trim text ≠ key.secretText ∧ Text.trim text ≠ key.seedText := by
  intro text
  obtain ⟨key, hkey⟩ := exists_ofSecret_ed25519 (Sample.secret .ed25519)
  obtain ⟨hcurve, hsecret⟩ := ofSecret_eq_ok_iff.mp hkey
  have htext : Text.trim text = key.shortText := by
    rw [shortText, hsecret]
    decide +kernel
  rw [htext]
  exact ⟨key, hcurve, hsecret, ofSecretText_of_trim_eq_shortText hcurve htext,
    key.shortText_ne hcurve⟩

end TezosWallet.Key
