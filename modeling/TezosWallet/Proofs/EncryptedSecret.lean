import TezosWallet.Proofs.Cipher.Secretbox
import TezosWallet.EncryptedSecret

/-!
# Encrypted payloads

Under a password, a payload that decrypts is the encryption of what it decrypts to, under the salt
that it begins with. All other payloads fail: for their length if they cannot hold a salt and a
tag, and otherwise as under a wrong password.

## Main results

* `EncryptedSecret.decrypt_encrypt`, `EncryptedSecret.decrypt_eq_ok_iff` — the payloads that
  decrypt.
* `EncryptedSecret.decrypt_eq_error_iff` — those that do not, with the reason.
* `EncryptedSecret.decrypt_iff_encryption` — both at once.
-/

namespace TezosWallet.EncryptedSecret

variable {password payload secret : Bytes}

theorem length_encrypt (password : Bytes) (salt : FixedBytes saltSize) (secret : Bytes) :
    (encrypt password salt secret).length = 24 + secret.length := by
  have hsalt : salt.toBytes.length = 8 := salt.length_toBytes
  have hbox := Secretbox.length_lock (deriveKey password salt.toBytes) secret
  rw [encrypt, List.length_append]
  omega

theorem take_encrypt (password : Bytes) (salt : FixedBytes saltSize) (secret : Bytes) :
    (encrypt password salt secret).take saltSize = salt.toBytes :=
  List.take_left' salt.length_toBytes

theorem drop_encrypt (password : Bytes) (salt : FixedBytes saltSize) (secret : Bytes) :
    (encrypt password salt secret).drop saltSize =
      Secretbox.lock (deriveKey password salt.toBytes) secret :=
  List.drop_left' salt.length_toBytes

/-- An encryption decrypts to what was encrypted. -/
theorem decrypt_encrypt (password : Bytes) (salt : FixedBytes saltSize) (secret : Bytes) :
    decrypt password (encrypt password salt secret) = .ok secret := by
  have hlong : ¬ (encrypt password salt secret).length < saltSize + tagSize := by
    rw [length_encrypt, saltSize, tagSize]
    omega
  have hopened := Secretbox.unlock_lock (deriveKey password salt.toBytes) secret
  rw [decrypt, if_neg hlong, take_encrypt, drop_encrypt, hopened]

/-- What decrypts is the encryption under the salt that it begins with. -/
theorem exists_salt_of_decrypt (h : decrypt password payload = .ok secret) :
    ∃ salt : FixedBytes saltSize, payload = encrypt password salt secret := by
  rw [decrypt] at h
  split at h
  · cases h
  · next hlong =>
    have hsize : (payload.take saltSize).length = saltSize := by
      rw [List.length_take]
      omega
    split at h
    · next opened hopened =>
      cases h
      refine ⟨⟨payload.take saltSize, hsize⟩, ?_⟩
      rw [encrypt, ← Secretbox.eq_lock_of_unlock hopened, List.take_append_drop]
    · cases h

/-- A payload decrypts to a secret exactly if it is an encryption of it. -/
theorem decrypt_eq_ok_iff :
    decrypt password payload = .ok secret ↔
      ∃ salt : FixedBytes saltSize, payload = encrypt password salt secret := by
  refine ⟨exists_salt_of_decrypt, ?_⟩
  rintro ⟨salt, rfl⟩
  exact decrypt_encrypt password salt secret

/-- A payload is too short, or else it is not an encryption under the password. -/
theorem decrypt_eq_error_iff {fault : Error} :
    decrypt password payload = .error fault ↔
      (payload.length < 24 ∧ fault = .tooShort 24 payload.length) ∨
        (24 ≤ payload.length ∧ (∀ salt secret, payload ≠ encrypt password salt secret) ∧
          fault = .invalidPassword) := by
  have hnot : (∀ salt secret, payload ≠ encrypt password salt secret) ↔
      ∀ secret, decrypt password payload ≠ .ok secret := by
    simp only [ne_eq, decrypt_eq_ok_iff, not_exists]
    exact forall_comm
  rw [hnot, decrypt]
  by_cases hshort : payload.length < saltSize + tagSize
  · have h24 : payload.length < 24 := hshort
    simp [h24, Nat.not_le.mpr h24, saltSize, tagSize, eq_comm]
  · have h24 : 24 ≤ payload.length := Nat.le_of_not_lt hshort
    simp only [if_neg hshort, h24, Nat.not_lt.mpr h24]
    cases Secretbox.unlock (deriveKey password (payload.take saltSize)) (payload.drop saltSize) <;>
      simp [eq_comm]

/-- What becomes of every payload under a password. Encryptions have twenty-four bytes more than
what they hold, begin with their salt, and decrypt to what they hold; nothing else decrypts. What
does not decrypt is too short, or fails as under a wrong password. -/
theorem decrypt_iff_encryption (password payload : Bytes) :
    (∀ salt secret, decrypt password (encrypt password salt secret) = .ok secret ∧
        (encrypt password salt secret).length = 24 + secret.length ∧
        salt.toBytes <+: encrypt password salt secret) ∧
      (∀ secret, decrypt password payload = .ok secret ↔
        ∃ salt : FixedBytes saltSize, salt.toBytes = payload.take 8 ∧
          payload = encrypt password salt secret) ∧
      ∀ fault, decrypt password payload = .error fault ↔
        (payload.length < 24 ∧ fault = .tooShort 24 payload.length) ∨
          (24 ≤ payload.length ∧ (∀ salt secret, payload ≠ encrypt password salt secret) ∧
            fault = .invalidPassword) := by
  refine ⟨fun salt secret => ⟨decrypt_encrypt password salt secret,
    length_encrypt password salt secret, List.prefix_append _ _⟩, fun secret => ?_,
    fun _ => decrypt_eq_error_iff⟩
  rw [decrypt_eq_ok_iff]
  refine exists_congr fun salt => ⟨?_, And.right⟩
  rintro rfl
  exact ⟨(take_encrypt password salt secret).symm, rfl⟩

end TezosWallet.EncryptedSecret
