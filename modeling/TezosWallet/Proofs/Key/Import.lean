import TezosWallet.Proofs.Curve.Signing
import TezosWallet.Proofs.Key.Generate

/-!
# Which secrets are imported

Raw bytes make a key exactly if they are a secret of the curve or, on Ed25519, a seed followed by
the public key derived from it; what else they are tells how they are refused. Every other way to a
key ends in such an import, so that the key belongs to the curve that its source tells, and it is
never refused when it signs.

## Main definitions

* `Key.IsRawSecret` — raw bytes that make a key; `Key.refusal` — the error of those that make none.
* `Key.Origin` — the ways to a key; `Key.Origin.load`, `Key.Origin.curve?` — the key and its curve.
* `Key.Sound` — what holds of every key.

## Main results

* `Key.ofBytes_cases` — the outcome of importing raw bytes.
* `Key.Origin.curve?_of_load` — a key belongs to the curve that its source tells.
* `Key.imports_exactly_secrets` — both together, with what holds of the key.
-/

namespace TezosWallet.Key

/-! ### Raw bytes -/

/-- The bytes are a secret of the curve, or on Ed25519 a seed and the public key derived from it. -/
def IsRawSecret (curve : Curve) (bytes : Bytes) : Prop :=
  bytes.length = 32 ∧ curve.Admits bytes ∨
    curve = .ed25519 ∧ bytes.length = 64 ∧ ∃ seed : FixedBytes 32, seed.toBytes = bytes.take 32 ∧
      Curve.derivePublicKey .ed25519 seed = .ok (bytes.drop 32)

/-- The error of importing bytes that make no key: bytes of the right number are refused by the
curve, and those of a seed and a public key do not belong together. -/
def refusal (curve : Curve) (bytes : Bytes) : KeyError :=
  if bytes.length = 32 then .curve (.keyDerivation curve)
  else if curve = .ed25519 ∧ bytes.length = 64 then .publicKeyMismatch
  else .invalidLength 32 bytes.length

/-- A secret of the curve has a key, and other bytes are refused. -/
theorem ofSecret_cases (curve : Curve) (secret : FixedBytes 32) :
    (curve.Admits secret.toBytes ∧ ∃ key, ofSecret curve secret = .ok key) ∨
    (¬ curve.Admits secret.toBytes ∧
      ofSecret curve secret = .error (.curve (.keyDerivation curve))) := by
  obtain ⟨hadmits, pub, hpub, hlength⟩ | ⟨hadmits, hpub⟩ := curve.derivePublicKey_cases secret
  · let key : Key := ⟨⟨curve, pub, hlength⟩, secret, hpub⟩
    exact .inl ⟨hadmits, key, ofSecret_eq_ok_iff.mpr ⟨rfl, rfl⟩⟩
  · refine .inr ⟨hadmits, ?_⟩
    rw [ofSecret]
    split
    · next fault hfault =>
      rw [hpub] at hfault
      rw [← Except.error.inj hfault]
    · next pub hderived =>
      rw [hpub] at hderived
      cases hderived

/-- The public half of a seed is the right one if it is the public key of the seed's key. -/
theorem derivePublicKey_seed_iff {key : Key} {bytes : Bytes} (hcurve : key.curve = .ed25519)
    (hseed : key.secret.toBytes = bytes.take 32) :
    (∃ seed : FixedBytes 32, seed.toBytes = bytes.take 32 ∧
      Curve.derivePublicKey .ed25519 seed = .ok (bytes.drop 32)) ↔
      key.publicKey.bytes = bytes.drop 32 := by
  have hderives : Curve.derivePublicKey .ed25519 key.secret = .ok key.publicKey.bytes :=
    hcurve ▸ key.derives
  constructor
  · rintro ⟨seed, htake, hdrop⟩
    obtain rfl : key.secret = seed := FixedBytes.ext (hseed.trans htake.symm)
    exact Except.ok.inj (hderives.symm.trans hdrop)
  · intro hdrop
    exact ⟨key.secret, hseed, hdrop ▸ hderives⟩

/-- Raw bytes that are a secret make a key, and all others are refused. -/
theorem ofBytes_cases (curve : Curve) (bytes : Bytes) :
    (IsRawSecret curve bytes ∧ ∃ key, ofBytes curve bytes = .ok key) ∨
    (¬ IsRawSecret curve bytes ∧ ofBytes curve bytes = .error (refusal curve bytes)) := by
  by_cases hbare : bytes.length = 32
  · have hof : ofBytes curve bytes = ofSecret curve ⟨bytes, hbare⟩ := by rw [ofBytes, dif_pos hbare]
    have hraw : IsRawSecret curve bytes ↔ curve.Admits bytes := by
      simp [IsRawSecret, hbare]
    rw [hraw, hof, refusal, if_pos hbare]
    exact ofSecret_cases curve ⟨bytes, hbare⟩
  by_cases hpaired : curve = .ed25519 ∧ bytes.length = 64
  · -- every seed has a key, so that only its public half can be wrong
    obtain ⟨rfl, hlength⟩ := hpaired
    obtain ⟨key, hkey⟩ := exists_ofSecret_ed25519 ⟨bytes.take 32, by simp [hlength]⟩
    obtain ⟨hcurve, hsecret⟩ := ofSecret_eq_ok_iff.mp hkey
    have hseed := derivePublicKey_seed_iff hcurve (congrArg FixedBytes.toBytes hsecret)
    have hraw : IsRawSecret .ed25519 bytes ↔ key.publicKey.bytes = bytes.drop 32 := by
      rw [← hseed]
      simp [IsRawSecret, hlength]
    have hrefusal : refusal .ed25519 bytes = .publicKeyMismatch := by
      rw [refusal, if_neg hbare, if_pos ⟨rfl, hlength⟩]
    rw [hraw, hrefusal, ofBytes, dif_neg hbare, dif_pos ⟨rfl, hlength⟩, hkey, Outcome.ok_bind]
    by_cases hpublic : key.publicKey.bytes = bytes.drop 32
    · exact .inl ⟨hpublic, key, if_pos hpublic⟩
    · exact .inr ⟨hpublic, if_neg hpublic⟩
  · have hraw : ¬ IsRawSecret curve bytes := by
      rintro (⟨hlength, -⟩ | ⟨hcurve, hlength, -⟩)
      · exact hbare hlength
      · exact hpaired ⟨hcurve, hlength⟩
    refine .inr ⟨hraw, ?_⟩
    rw [ofBytes, dif_neg hbare, dif_neg hpaired, refusal, if_neg hbare, if_neg hpaired]

/-! ### The ways to a key -/

/-- A way to a key. -/
inductive Origin
  | raw (curve : Curve) (bytes : Bytes)
  | hex (curve : Curve) (text : String)
  | base64 (curve : Curve) (text : String)
  /-- A written secret, whose curve may be given. -/
  | secretText (text : String) (curve : Option Curve)
  | mnemonic (curve : Curve) (phrase email password : String)
  | encrypted (text password : String)
  /-- A secret drawn from random bytes. -/
  | generated (curve : Curve) (entropy : Entropy)

namespace Origin

/-- The key that comes of it. -/
def load : Origin → Except KeyError Key
  | raw curve bytes => ofBytes curve bytes
  | hex curve text => ofHex curve text
  | base64 curve text => ofBase64 curve text
  | secretText text curve => ofSecretText text curve
  | mnemonic curve phrase email password => ofMnemonic curve phrase email password
  | encrypted text password => ofEncryptedText text password
  | generated curve entropy => (generate curve entropy).map Prod.fst

/-- The curve that is asked for, or else the one that the text tells. -/
def curve? : Origin → Option Curve
  | raw curve _ | hex curve _ | base64 curve _ | mnemonic curve _ _ _ | generated curve _ =>
    some curve
  | secretText text curve => curve.or (Curve.ofText? (Text.trim text))
  | encrypted text _ => Curve.ofText? (Text.trim text)

/-- A key belongs to the curve that its origin tells. -/
theorem curve?_of_load {origin : Origin} {key : Key} (h : origin.load = .ok key) :
    origin.curve? = some key.curve := by
  cases origin with
  | raw curve bytes => rw [curve?, (ofBytes_eq_ok_iff.mp h).1]
  | hex curve text | base64 curve text => rw [curve?, curve_of_bind_ofBytes h]
  | secretText text named => exact (ofSecretText_eq_ok_iff_payload.mp h).1
  | mnemonic curve phrase email password => rw [curve?, curve_of_ofMnemonic h]
  | encrypted text password =>
    rw [load, ofEncryptedText] at h
    rw [curve?]
    split at h
    · cases h
    · next curve hcurve =>
      obtain ⟨payload, -, h⟩ := Outcome.bind_eq_ok_iff.mp h
      rw [Curve.ofTextAmong?] at hcurve
      split at hcurve
      · rw [hcurve, curve_of_bind_ofBytes h]
      · cases hcurve
  | generated curve entropy =>
    obtain ⟨⟨made, rest⟩, hmade, rfl⟩ := Outcome.map_eq_ok_iff.mp h
    rw [curve?, curve_of_generate hmade]

end Origin

/-! ### What holds of every key -/

/-- The public key is derived from the secret, carries the curve and has its size, and no way of
signing takes the secret for an improper one. -/
structure Sound (key : Key) : Prop where
  derived : key.curve.derivePublicKey key.secret = .ok key.publicKey.bytes
  curve_publicKey : key.publicKey.curve = key.curve
  length_publicKey : key.publicKey.bytes.length = key.curve.publicKeySize
  sign : ∀ message curve, key.sign message ≠ .error (.curve (.keyDerivation curve))
  signWith : ∀ watermark message curve,
    key.signWith watermark message ≠ .error (.curve (.keyDerivation curve))
  signHex : ∀ message curve, key.signHex message ≠ .error (.curve (.keyDerivation curve))
  signOperation : ∀ (operation : ForgedOperation) curve,
    operation.sign key ≠ .error (.curve (.keyDerivation curve))

/-- A key fails to sign for want of a nonce only. -/
theorem eq_signing_of_signMarked {key : Key} {data : Bytes} {fault : KeyError}
    (h : key.signMarked data = .error fault) : fault = .curve (.signing key.curve) := by
  rw [signMarked] at h
  cases hsign : key.curve.sign data key.secret with
  | error cause =>
    rw [hsign, Curve.eq_signing_of_sign key.derives hsign] at h
    exact (Except.error.inj h).symm
  | ok signature =>
    rw [hsign] at h
    cases h

theorem signMarked_ne_keyDerivation (key : Key) (data : Bytes) (curve : Curve) :
    key.signMarked data ≠ .error (.curve (.keyDerivation curve)) := by
  intro h
  cases eq_signing_of_signMarked h

/-- Every key is sound. -/
theorem sound (key : Key) : key.Sound where
  derived := key.derives
  curve_publicKey := rfl
  length_publicKey := key.publicKey.length_bytes
  sign _ _ := key.signMarked_ne_keyDerivation _ _
  signWith _ _ _ := key.signMarked_ne_keyDerivation _ _
  signHex message curve h := by
    obtain hhex | ⟨bytes, -, hsign⟩ := Outcome.bind_eq_error_iff.mp h
    · cases hdecode : Hex.decode (Text.trim message) <;> rw [hdecode] at hhex <;> cases hhex
    · exact key.signMarked_ne_keyDerivation _ _ hsign
  signOperation operation curve h := by
    obtain hsign | ⟨signature, -, hdone⟩ := Outcome.bind_eq_error_iff.mp h
    · exact key.signMarked_ne_keyDerivation _ _ hsign
    · cases hdone

/-- Raw bytes make a key exactly if they are a secret of the curve, by themselves or on Ed25519
before the public key derived from them, and are otherwise refused for what they are. Every key,
whatever it comes from, belongs to the curve that its origin tells and is sound. -/
theorem imports_exactly_secrets :
    (∀ curve bytes, ((∃ key, ofBytes curve bytes = .ok key) ↔ IsRawSecret curve bytes) ∧
      ∀ fault, ofBytes curve bytes = .error fault ↔
        ¬ IsRawSecret curve bytes ∧ fault = refusal curve bytes) ∧
    ∀ (origin : Origin) (key : Key), origin.load = .ok key →
      origin.curve? = some key.curve ∧ key.Sound := by
  refine ⟨fun curve bytes => ?_, fun origin key h => ⟨Origin.curve?_of_load h, key.sound⟩⟩
  obtain ⟨hraw, key, hkey⟩ | ⟨hraw, herror⟩ := ofBytes_cases curve bytes
  · exact ⟨iff_of_true ⟨key, hkey⟩ hraw, fun fault => by simp [hkey, hraw]⟩
  · exact ⟨iff_of_false (by simp [herror]) hraw, fun fault => by simp [herror, hraw, eq_comm]⟩

/-- The greatest secret of the curve of `tz3` accounts, and the number after it. -/
theorem imports_exactly_secrets_p256 :
    let bytes := Bytes.ofNatBE 32 (ShortCurve.p256.order - 1)
    (∃ key, (Origin.raw .p256 bytes).load = .ok key ∧ key.curve = .p256 ∧ key.Sound) ∧
      ofBytes .p256 (Bytes.ofNatBE 32 ShortCurve.p256.order) =
        .error (.curve (.keyDerivation .p256)) := by
  intro bytes
  have hraw : IsRawSecret .p256 bytes := .inl ⟨rfl, by decide +kernel, by decide +kernel⟩
  have hnot : ¬ IsRawSecret .p256 (Bytes.ofNatBE 32 ShortCurve.p256.order) := by
    rintro (⟨-, -, hlt⟩ | ⟨hcurve, -⟩)
    · exact absurd hlt (by decide +kernel)
    · cases hcurve
  obtain ⟨himports, hkeys⟩ := imports_exactly_secrets
  obtain ⟨key, hkey⟩ := (himports .p256 bytes).1.mpr hraw
  obtain ⟨hcurve, hsound⟩ := hkeys (.raw .p256 bytes) key hkey
  refine ⟨⟨key, hkey, (Option.some.inj hcurve).symm, hsound⟩, ?_⟩
  exact ((himports .p256 _).2 _).mpr ⟨hnot, rfl⟩

end TezosWallet.Key
