import TezosWallet.Key.Generate
import TezosWallet.Proofs.Key.SecretText
import TezosWallet.Proofs.Mnemonic

/-!
# Generated keys and phrases

Whatever the source of random bytes answers, a key that comes of it belongs to the curve that was
asked for, and a phrase that comes of it is well-formed and has the number of words that was asked
for. A source that fails is the error of what was to be generated. Of a phrase nothing else can
fail but the number of words, and on Ed25519 every secret and every phrase has a key.

## Main definitions

* `Entropy.Steady` — the source never fails.

## Main results

* `Key.curve_of_generate`, `Key.curve_of_ofMnemonic` — the curve of a new key.
* `Mnemonic.generate_eq_ok_iff`, `Mnemonic.wellFormed_of_generate` — new phrases.
* `Key.encrypt_eq_ok_iff` — secrets encrypted under a random salt.
* `Key.exists_generate_ed25519`, `Key.exists_ofMnemonic_ed25519` — Ed25519 keys of random bytes and
  of phrases.
-/

namespace TezosWallet

namespace Entropy

/-- The source never fails. -/
def Steady (entropy : Entropy) : Prop := ∀ number n, (entropy.draw number n).isOk = true

theorem steady_constant (b : UInt8) : (constant b).Steady := fun _ _ => rfl

/-- A steady source gives as many bytes as are asked for, and stays steady. -/
theorem Steady.exists_take {entropy : Entropy} (h : entropy.Steady) (n : Nat) :
    ∃ bytes rest, entropy.take n = .ok (bytes, rest) ∧ rest.Steady := by
  obtain ⟨bytes, hdraw⟩ := Outcome.exists_of_isOk (h 0 n)
  refine ⟨bytes, _, Outcome.bind_eq_ok_iff.mpr ⟨bytes, hdraw, rfl⟩, fun number => h (number + 1)⟩

end Entropy

namespace Mnemonic

variable {count : Nat} {entropy rest : Entropy} {mnemonic : Mnemonic}

/-- A phrase comes about exactly if the number of words is admissible and the source gives the
bytes for it, and it is the phrase of these bytes. -/
theorem generate_eq_ok_iff :
    generate count entropy = .ok (mnemonic, rest) ↔ isCount count = true ∧
      ∃ bytes, entropy.take (entropySize count) = .ok (bytes, rest) ∧
        ofEntropy count bytes.toBytes = mnemonic := by
  rw [generate]
  split
  · next hcount => simp [Outcome.bind_eq_ok_iff, hcount]
  · next hcount => simp [hcount]

/-- A phrase that is generated is well-formed and has as many words as were asked for. -/
theorem wellFormed_of_generate (h : generate count entropy = .ok (mnemonic, rest)) :
    mnemonic.WellFormed ∧ mnemonic.places.length = count := by
  obtain ⟨hcount, bytes, -, rfl⟩ := generate_eq_ok_iff.mp h
  exact ⟨wellFormed_ofEntropy hcount (FixedBytes.length_toBytes _), length_placesOf ..⟩

/-- A source that fails is the error of the phrase. -/
theorem generate_of_take_eq_error {cause : String} (hcount : isCount count = true)
    (htake : entropy.take (entropySize count) = .error cause) :
    generate count entropy = .error (.random cause) := by
  rw [generate, if_pos hcount, htake]
  rfl

end Mnemonic

namespace Key

variable {curve : Curve} {key : Key} {entropy rest : Entropy}

/-- A secret that is drawn belongs to the curve, however often the curve refused one before it. -/
theorem curve_of_draw {attempts : Nat} {refused : Option KeyError}
    (h : draw curve attempts refused entropy = .ok (key, rest)) : key.curve = curve := by
  fun_induction draw curve attempts refused entropy with
  | case1 => cases h
  | case2 => cases h
  | case3 attempts refused entropy secret later htake made hmade =>
    cases h
    exact (ofSecret_eq_ok_iff.mp hmade).1
  | case4 attempts refused entropy secret later htake fault hfault ih => exact ih h

theorem curve_of_generate (h : generate curve entropy = .ok (key, rest)) : key.curve = curve :=
  curve_of_draw h

/-- An encrypted secret comes about exactly if the source gives the salt for it. -/
theorem encrypt_eq_ok_iff {password text : String} :
    key.encrypt password entropy = .ok (text, rest) ↔
      ∃ salt, entropy.take 8 = .ok (salt, rest) ∧ key.encryptedText password salt = text := by
  simp [encrypt, EncryptedSecret.encryptSalted, Outcome.bind_eq_ok_iff, encryptedText,
    EncryptedSecret.saltSize]

theorem curve_of_ofMnemonic {phrase email password : String}
    (h : ofMnemonic curve phrase email password = .ok key) : key.curve = curve :=
  curve_of_bind_ofBytes h

/-- On Ed25519 every secret has a key. -/
theorem exists_ofSecret_ed25519 (secret : FixedBytes 32) :
    ∃ key, ofSecret .ed25519 secret = .ok key := by
  let publicKey := Edwards25519.publicKey secret
  let key : Key := ⟨⟨.ed25519, publicKey.toBytes, publicKey.length_toBytes⟩, secret, rfl⟩
  exact ⟨key, ofSecret_eq_ok_iff.mpr ⟨rfl, rfl⟩⟩

/-- On Ed25519 the first draw of a steady source gives a key. -/
theorem exists_generate_ed25519 (hsteady : entropy.Steady) :
    ∃ key rest, generate .ed25519 entropy = .ok (key, rest) ∧ rest.Steady := by
  obtain ⟨secret, rest, htake, hrest⟩ := hsteady.exists_take 32
  obtain ⟨key, hkey⟩ := exists_ofSecret_ed25519 secret
  refine ⟨key, rest, ?_, hrest⟩
  simp only [generate, drawAttempts, draw, htake, hkey]

/-- On Ed25519 every well-formed phrase has a key, with every passphrase. -/
theorem exists_ofMnemonic_ed25519 {mnemonic : Mnemonic} (h : mnemonic.WellFormed)
    (email password : String) :
    ∃ key, ofMnemonic .ed25519 mnemonic.toText email password = .ok key := by
  have hlength : ((mnemonic.seed (email ++ password)).toBytes.take 32).length = 32 := by
    rw [List.length_take, FixedBytes.length_toBytes]
    rfl
  rw [ofMnemonic, Mnemonic.ofText_toText h, Outcome.mapError_ok, Outcome.ok_bind, ofBytes,
    dif_pos hlength]
  exact exists_ofSecret_ed25519 _

end Key

end TezosWallet
