import TezosWallet.Proofs.EncryptedSecret
import TezosWallet.Proofs.Key.SecretText

/-!
# A key is read back from its encrypted secret

An encrypted secret tells its curve by its tag and holds the bare secret, so under the password
that it was written with it gives the key that was written, whatever the salt. A text that gives a
key holds the secret of that key, encrypted under the same password and curve: no password opens a
text to a key that was not sealed in it.

## Main results

* `Key.ofEncryptedText_encryptedText` — reading what was written.
* `Key.exists_encryption_of_ofEncryptedText` — what was read had been written.
* `Key.encryptedText_opens` — both for every key and password.
-/

namespace TezosWallet.Key

variable {key : Key} {password text before after : String}

theorem length_encryptedPayload (key : Key) (password : String) (salt : FixedBytes 8) :
    (EncryptedSecret.encrypt (Bytes.utf8 password) salt key.secret.toBytes).length =
      key.curve.encryptedSecretVersion.payloadSize := by
  have hpayload := EncryptedSecret.length_encrypt (Bytes.utf8 password) salt key.secret.toBytes
  rw [hpayload, key.secret.length_toBytes]
  cases key.curve <;> rfl

/-- The tag and the length of an encrypted secret. -/
theorem encryptedText_readable (key : Key) (password : String) (salt : FixedBytes 8) :
    Text.hasTag key.curve.encryptedSecretVersion.tag (key.encryptedText password salt) = true ∧
      (key.encryptedText password salt).length = 88 := by
  have hsize := key.length_encryptedPayload password salt
  refine ⟨Version.hasTag_encode hsize, (Version.length_encode hsize).trans ?_⟩
  cases key.curve <;> rfl

/-- A key is read back from its encrypted secret, with any blanks around it. -/
theorem ofEncryptedText_encryptedText (key : Key) (password : String) (salt : FixedBytes 8)
    (hbefore : Text.AllBlank before) (hafter : Text.AllBlank after) :
    ofEncryptedText (before ++ key.encryptedText password salt ++ after) password = .ok key := by
  have hsize := key.length_encryptedPayload password salt
  have htag : key.curve.encryptedSecretVersion.tag ∈ Curve.encryptedSecretTags := by
    cases key.curve <;> decide
  have hversion : key.curve.encryptedSecretVersion ∈ key.curve.versions := by
    simp [Curve.versions]
  have hcurve := (Version.ofTextAmong?_encode htag hsize).trans
    (Version.curve?_eq_some key.curve hversion)
  have hsecret := EncryptedSecret.decrypt_encrypt (Bytes.utf8 password) salt key.secret.toBytes
  rw [ofEncryptedText, encryptedText, trim_encode hbefore hafter]
  simp only [hcurve, Base58Check.decode_eq_ok_iff.mpr rfl, Outcome.mapError_ok, Outcome.ok_bind,
    hsecret]
  exact key.ofBytes_secret

/-- A text that gives a key is an encryption of its secret, which on Ed25519 its public key may
follow. -/
theorem exists_encryption_of_ofEncryptedText (h : ofEncryptedText text password = .ok key) :
    ∃ salt raw, Text.trim text = Base58Check.encode key.curve.encryptedSecretVersion.bytes
        (EncryptedSecret.encrypt (Bytes.utf8 password) salt raw) ∧
      (raw = key.secret.toBytes ∨
        key.curve = .ed25519 ∧ raw = key.secret.toBytes ++ key.publicKey.bytes) := by
  rw [ofEncryptedText] at h
  split at h
  · cases h
  · next curve hcurve =>
    obtain ⟨payload, hpayload, h⟩ := Outcome.bind_eq_ok_iff.mp h
    obtain ⟨raw, hraw, h⟩ := Outcome.bind_eq_ok_iff.mp h
    obtain ⟨rfl, hkey⟩ := ofBytes_eq_ok_iff.mp h
    rw [Outcome.mapError_eq_ok_iff, Base58Check.decode_eq_ok_iff] at hpayload
    rw [Outcome.mapError_eq_ok_iff, EncryptedSecret.decrypt_eq_ok_iff] at hraw
    obtain ⟨salt, rfl⟩ := hraw
    exact ⟨salt, raw, hpayload, hkey⟩

/-- Every key has, under every password and salt, an encrypted text of eighty-eight characters that
begins with the tag of its curve, and is read back from it with any blanks around it. Conversely,
whatever text gives the key under the password is, between its blanks, the text of an encryption
of the key's own secret, which on Ed25519 its public key may follow. -/
theorem encryptedText_opens (key : Key) (password : String) :
    (∀ salt,
      (∃ tag, (key.curve, tag) ∈ [(.ed25519, "edesk"), (.secp256k1, "spesk"), (.p256, "p2esk")] ∧
        Text.hasTag tag (key.encryptedText password salt) = true) ∧
      (key.encryptedText password salt).length = 88 ∧
      ∀ before after, Text.AllBlank before → Text.AllBlank after →
        ofEncryptedText (before ++ key.encryptedText password salt ++ after) password =
          .ok key) ∧
    ∀ text, ofEncryptedText text password = .ok key →
      ∃ salt raw, Text.trim text = Base58Check.encode key.curve.encryptedSecretVersion.bytes
          (EncryptedSecret.encrypt (Bytes.utf8 password) salt raw) ∧
        (raw = key.secret.toBytes ∨
          key.curve = .ed25519 ∧ raw = key.secret.toBytes ++ key.publicKey.bytes) := by
  refine ⟨fun salt => ?_, fun _ => exists_encryption_of_ofEncryptedText⟩
  obtain ⟨htag, hlength⟩ := key.encryptedText_readable password salt
  refine ⟨⟨_, ?_, htag⟩, hlength, fun _ _ => key.ofEncryptedText_encryptedText password salt⟩
  cases key.curve <;> decide

/-- The key of the sample seed under the password `correct horse` and a salt of zeros, between a
blank and a line end. -/
theorem encryptedText_opens_sampleSeed :
    ∃ key : Key, key.secret = Sample.secret .ed25519 ∧ key.curve = .ed25519 ∧
      Text.AllBlank " " ∧ Text.AllBlank "\n" ∧
      ofEncryptedText (" " ++ key.encryptedText "correct horse" (.ofNatBE 8 0) ++ "\n")
        "correct horse" = .ok key ∧
      ∃ salt raw,
        Text.trim (" " ++ key.encryptedText "correct horse" (.ofNatBE 8 0) ++ "\n") =
          Base58Check.encode key.curve.encryptedSecretVersion.bytes
            (EncryptedSecret.encrypt (Bytes.utf8 "correct horse") salt raw) ∧
        (raw = key.secret.toBytes ∨
          key.curve = .ed25519 ∧ raw = key.secret.toBytes ++ key.publicKey.bytes) := by
  let publicKey := Edwards25519.publicKey (Sample.secret .ed25519)
  let key : Key :=
    ⟨⟨.ed25519, publicKey.toBytes, publicKey.length_toBytes⟩, Sample.secret .ed25519, rfl⟩
  have hbefore : Text.AllBlank " " := by simp [Text.AllBlank, Text.isBlank]
  have hafter : Text.AllBlank "\n" := by simp [Text.AllBlank, Text.isBlank]
  obtain ⟨hopens, honly⟩ := key.encryptedText_opens "correct horse"
  have hkey := (hopens (.ofNatBE 8 0)).2.2 _ _ hbefore hafter
  exact ⟨key, rfl, rfl, hbefore, hafter, hkey, honly _ hkey⟩

end TezosWallet.Key
