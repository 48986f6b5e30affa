import TezosWallet.Proofs.Curve.Tag
import TezosWallet.Proofs.Text.Blank
import TezosWallet.Sample

/-!
# A key is read back from its written secret

The text of a secret tells its curve by its tag and, on Ed25519, its form by its length, so it is
read under the version that it was written with. What is read is the secret, and the key derived
from it is the one that was written, as a key is nothing but a secret with what derives from it.

## Main definitions

* `Key.seedText` — the bare seed of a key, written.
* `Key.Reimport` — a way of writing a key's secret and reading it back.

## Main results

* `Key.ofSecretText_eq_ok_iff_payload` — what a text must hold to be read as a key.
* `Key.ofSecretText_encode` — reading a text under the version that it is written with.
* `Key.ofBytes_secret`, `Key.ofBytes_secretPayload` — a key from its own secret.
* `Key.ofBytes_eq_ok_iff` — the raw bytes that make a key.
* `Key.secretText_survives` — every chain of imports gives the key it began with.
-/

namespace TezosWallet.Key

/-! ### A key from its own secret -/

/-- A key is what derives from its secret. -/
theorem ofSecret_secret (key : Key) : ofSecret key.curve key.secret = .ok key := by
  obtain ⟨⟨curve, bytes, hlength⟩, secret, hderives⟩ := key
  change ofSecret curve secret = _
  rw [ofSecret]
  split
  · next fault h =>
    rw [h] at hderives
    cases hderives
  · next derived h =>
    obtain rfl : derived = bytes := Except.ok.inj (h.symm.trans hderives)
    exact dif_pos hlength

theorem ofBytes_secret (key : Key) : ofBytes key.curve key.secret.toBytes = .ok key := by
  rw [ofBytes, dif_pos key.secret.length_toBytes]
  exact key.ofSecret_secret

/-- On Ed25519 the public key after the seed is the right one. -/
theorem ofBytes_secretPayload (key : Key) : ofBytes key.curve key.secretPayload = .ok key := by
  cases hcurve : key.curve with
  | ed25519 =>
    have hpublic : key.publicKey.bytes.length = 32 :=
      key.publicKey.length_bytes.trans (congrArg Curve.publicKeySize hcurve)
    have hpayload : key.secretPayload = key.secret.toBytes ++ key.publicKey.bytes := by
      rw [secretPayload, hcurve]
    have hlength : key.secretPayload.length = 64 := by
      rw [hpayload, List.length_append, key.secret.length_toBytes, hpublic]
    have hseed : key.secretPayload.take 32 = key.secret.toBytes := by
      rw [hpayload, List.take_left' key.secret.length_toBytes]
    have hrest : key.secretPayload.drop 32 = key.publicKey.bytes := by
      rw [hpayload, List.drop_left' key.secret.length_toBytes]
    have hkey : ofSecret .ed25519 key.secret = .ok key := hcurve ▸ key.ofSecret_secret
    rw [ofBytes, dif_neg (by omega), dif_pos ⟨rfl, hlength⟩]
    simp only [hseed, hrest]
    rw [hkey, Outcome.ok_bind, if_pos rfl]
    rfl
  | secp256k1 | p256 =>
    have hpayload : key.secretPayload = key.secret.toBytes := by rw [secretPayload, hcurve]
    rw [hpayload, ← hcurve]
    exact key.ofBytes_secret

/-- The key of a secret is the only key of its curve with that secret. -/
theorem ofSecret_eq_ok_iff {curve : Curve} {secret : FixedBytes 32} {key : Key} :
    ofSecret curve secret = .ok key ↔ key.curve = curve ∧ key.secret = secret := by
  constructor
  · intro h
    rw [ofSecret] at h
    split at h
    · cases h
    · split at h
      · cases h
        exact ⟨rfl, rfl⟩
      · cases h
  · rintro ⟨rfl, rfl⟩
    exact key.ofSecret_secret

/-- Raw bytes make a key exactly if they are its secret, which on Ed25519 its public key may
follow. -/
theorem ofBytes_eq_ok_iff {curve : Curve} {bytes : Bytes} {key : Key} :
    ofBytes curve bytes = .ok key ↔ key.curve = curve ∧ (bytes = key.secret.toBytes ∨
      curve = .ed25519 ∧ bytes = key.secret.toBytes ++ key.publicKey.bytes) := by
  constructor
  · intro h
    rw [ofBytes] at h
    split at h
    · obtain ⟨hcurve, hsecret⟩ := ofSecret_eq_ok_iff.mp h
      exact ⟨hcurve, .inl (congrArg FixedBytes.toBytes hsecret).symm⟩
    · split at h
      · next hform =>
        obtain ⟨derived, hderived, h⟩ := Outcome.bind_eq_ok_iff.mp h
        split at h
        · next hpublic =>
          cases h
          obtain ⟨hcurve, hsecret⟩ := ofSecret_eq_ok_iff.mp hderived
          refine ⟨hcurve, .inr ⟨hform.1, ?_⟩⟩
          rw [hpublic, hsecret, List.take_append_drop]
        · cases h
      · cases h
  · rintro ⟨rfl, rfl | ⟨hcurve, rfl⟩⟩
    · exact key.ofBytes_secret
    · have hpayload : key.secretPayload = key.secret.toBytes ++ key.publicKey.bytes := by
        rw [secretPayload, hcurve]
      exact hpayload ▸ key.ofBytes_secretPayload

/-- A key belongs to the curve that its raw bytes are read for, whatever they come from. -/
theorem curve_of_bind_ofBytes {α : Type} {x : Except KeyError α} {f : α → Bytes} {curve : Curve}
    {key : Key} (h : (x >>= fun a => ofBytes curve (f a)) = .ok key) : key.curve = curve := by
  obtain ⟨a, -, hbytes⟩ := Outcome.bind_eq_ok_iff.mp h
  exact (ofBytes_eq_ok_iff.mp hbytes).1

theorem length_secretPayload (key : Key) :
    key.secretPayload.length = key.curve.secretKeyVersion.payloadSize := by
  have hpublic : key.publicKey.bytes.length = key.curve.publicKeySize := key.publicKey.length_bytes
  cases hcurve : key.curve <;>
    simp [secretPayload, hcurve, key.secret.length_toBytes, hpublic, Curve.secretKeyVersion,
      Version.payloadSize, Curve.publicKeySize]

/-! ### Written secrets -/

theorem isBlank_of_mem_alphabet {c : Char} (hc : c ∈ Base58.alphabet) :
    Text.isBlank c = false := by
  have hlt := Base58.idxOf_lt hc
  rw [← Base58.digitChar_idxOf hc]
  exact Text.isBlank_of_graphic (Base58.digitChar_graphic _ hlt) (Base58.digitChar_ascii _ hlt)

/-- Blanks around an identifier are the only ones. -/
theorem trim_encode {before after : String} (hbefore : Text.AllBlank before)
    (hafter : Text.AllBlank after) (version payload : Bytes) :
    Text.trim (before ++ Base58Check.encode version payload ++ after) =
      Base58Check.encode version payload := by
  rw [Text.trim_append hbefore hafter, Text.trim_eq_self]
  intro c hc
  exact isBlank_of_mem_alphabet (Base58.mem_alphabet_of_mem_encode hc)

variable {curve : Curve} {named : Option Curve} {v : Version} {payload : Bytes}
  {before after : String}

/-- A text is read as a key if it tells the curve of the key and writes raw bytes that make it,
under the version that it is read under. -/
theorem ofSecretText_eq_ok_iff_payload {text : String} {key : Key} :
    ofSecretText text named = .ok key ↔
      named.or (Curve.ofText? (Text.trim text)) = some key.curve ∧ ∃ payload,
        Text.trim text =
            Base58Check.encode (versionOfText key.curve (Text.trim text)).bytes payload ∧
          ofBytes key.curve payload = .ok key := by
  rw [ofSecretText]
  split
  · next hnone => simp [hnone]
  · next curve hcurve =>
    rw [hcurve, Option.some.injEq, Outcome.bind_eq_ok_iff]
    simp only [Outcome.mapError_eq_ok_iff, Base58Check.decode_eq_ok_iff]
    constructor
    · rintro ⟨payload, htext, hbytes⟩
      obtain rfl := (ofBytes_eq_ok_iff.mp hbytes).1
      exact ⟨rfl, payload, htext, hbytes⟩
    · rintro ⟨rfl, h⟩
      exact h

/-- A text is read under the version that it is written with, if its curve is known and its length
is not misleading. -/
theorem ofSecretText_encode
    (hcurve : named.or (Curve.ofText? (Base58Check.encode v.bytes payload)) = some curve)
    (hversion : versionOfText curve (Base58Check.encode v.bytes payload) = v)
    (hbefore : Text.AllBlank before) (hafter : Text.AllBlank after) :
    ofSecretText (before ++ Base58Check.encode v.bytes payload ++ after) named =
      ofBytes curve payload := by
  have hdecode := Base58Check.decode_eq_ok_iff.mpr (Eq.refl (Base58Check.encode v.bytes payload))
  rw [ofSecretText, trim_encode hbefore hafter]
  simp only [hcurve, hversion, hdecode, Outcome.mapError_ok, Outcome.ok_bind]

/-- A well-formed text of a curve tells it, whether the curve is named or not. -/
theorem or_ofText?_encode (hnamed : named ∈ [none, some curve]) (hv : v ∈ curve.versions)
    (hsize : payload.length = v.payloadSize) :
    named.or (Curve.ofText? (Base58Check.encode v.bytes payload)) = some curve := by
  rw [Version.curve_encode hsize, Version.curve?_eq_some curve hv]
  simp only [List.mem_cons, List.not_mem_nil, or_false] at hnamed
  rcases hnamed with rfl | rfl <;> rfl

theorem versionOfText_secretText (key : Key) :
    versionOfText key.curve key.secretText = key.curve.secretKeyVersion := by
  rw [versionOfText, if_neg]
  rintro ⟨hcurve, hlength⟩
  rw [secretText, Version.utf8ByteSize_encode key.length_secretPayload, hcurve] at hlength
  cases hlength

/-- The written secret of a key tells its curve. -/
theorem or_ofText?_secretText (key : Key) (hnamed : named ∈ [none, some key.curve]) :
    named.or (Curve.ofText? key.secretText) = some key.curve :=
  or_ofText?_encode hnamed (by simp [Curve.versions]) key.length_secretPayload

/-- A key is read back from its written secret. -/
theorem ofSecretText_secretText (key : Key) (hnamed : named ∈ [none, some key.curve])
    (hbefore : Text.AllBlank before) (hafter : Text.AllBlank after) :
    ofSecretText (before ++ key.secretText ++ after) named = .ok key := by
  rw [secretText, ofSecretText_encode (key.or_ofText?_secretText hnamed)
    key.versionOfText_secretText hbefore hafter, key.ofBytes_secretPayload]

/-- The bare seed of a key, written as on Ed25519. -/
def seedText (key : Key) : String :=
  Base58Check.encode Version.edskSeed.bytes key.secret.toBytes

theorem versionOfText_seedText (key : Key) (hcurve : key.curve = .ed25519) :
    versionOfText key.curve key.seedText = .edskSeed := by
  rw [hcurve]
  exact Version.versionOfText_encode (.inl rfl) key.secret.length_toBytes

/-- On Ed25519 the written seed of a key tells its curve. -/
theorem or_ofText?_seedText (key : Key) (hcurve : key.curve = .ed25519)
    (hnamed : named ∈ [none, some key.curve]) :
    named.or (Curve.ofText? key.seedText) = some key.curve :=
  or_ofText?_encode hnamed (by rw [hcurve]; decide) key.secret.length_toBytes

/-- On Ed25519 a key is read back from its written seed. -/
theorem ofSecretText_seedText (key : Key) (hcurve : key.curve = .ed25519)
    (hnamed : named ∈ [none, some key.curve])
    (hbefore : Text.AllBlank before) (hafter : Text.AllBlank after) :
    ofSecretText (before ++ key.seedText ++ after) named = .ok key := by
  rw [seedText, ofSecretText_encode (key.or_ofText?_seedText hcurve hnamed)
    (key.versionOfText_seedText hcurve) hbefore hafter, key.ofBytes_secret]

/-! ### Chains of imports -/

/-- A way of writing a key's secret and reading it back: the blanks around the text, whether the
curve is named, and whether a bare seed is written where the curve has that form. -/
structure Reimport where
  before : String
  after : String
  blank_before : Text.AllBlank before
  blank_after : Text.AllBlank after
  named : Bool
  bare : Bool

/-- The text that is read. -/
def Reimport.text (way : Reimport) (key : Key) : String :=
  way.before ++ (if way.bare ∧ key.curve = .ed25519 then key.seedText else key.secretText) ++
    way.after

/-- Writes a key's secret and reads it back. -/
def Reimport.run (way : Reimport) (key : Key) : Except KeyError Key :=
  ofSecretText (way.text key) (if way.named then some key.curve else none)

theorem Reimport.run_eq (way : Reimport) (key : Key) : way.run key = .ok key := by
  have hnamed : (if way.named then some key.curve else none) ∈ [none, some key.curve] := by
    split <;> simp
  rw [run, text]
  split
  · next hbare =>
    exact key.ofSecretText_seedText hbare.2 hnamed way.blank_before way.blank_after
  · exact key.ofSecretText_secretText hnamed way.blank_before way.blank_after

/-- Chains of imports give the key that they begin with. -/
theorem foldlM_run_eq (ways : List Reimport) (key : Key) :
    ways.foldlM (fun key way => way.run key) key = .ok key := by
  induction ways with
  | nil => rfl
  | cons way ways ih => rw [List.foldlM_cons, way.run_eq, Outcome.ok_bind, ih]

/-- Every key is read back from its written secret, with any blanks around it, whether its curve is
named or told by the text; on Ed25519 also from its written seed. So it comes unchanged out of
every chain of imports. -/
theorem secretText_survives (key : Key) :
    (∀ before after, Text.AllBlank before → Text.AllBlank after →
      ∀ named ∈ [none, some key.curve],
        ofSecretText (before ++ key.secretText ++ after) named = .ok key ∧
          (key.curve = .ed25519 →
            ofSecretText (before ++ key.seedText ++ after) named = .ok key)) ∧
      ∀ ways : List Reimport, ways.foldlM (fun key way => way.run key) key = .ok key :=
  ⟨fun _ _ hbefore hafter _ hnamed =>
    ⟨key.ofSecretText_secretText hnamed hbefore hafter,
      fun hcurve => key.ofSecretText_seedText hcurve hnamed hbefore hafter⟩,
    fun ways => foldlM_run_eq ways key⟩

/-- The key of the sample seed, between an ideographic space and a line end. -/
theorem secretText_survives_sampleSeed :
    ∃ key : Key, key.secret = Sample.secret .ed25519 ∧ key.curve = .ed25519 ∧
      Text.AllBlank "\u3000" ∧ Text.AllBlank "\r\n" ∧
      ofSecretText ("\u3000" ++ key.secretText ++ "\r\n") none = .ok key ∧
      ofSecretText ("\u3000" ++ key.seedText ++ "\r\n") (some .ed25519) = .ok key := by
  let publicKey := Edwards25519.publicKey (Sample.secret .ed25519)
  let key : Key :=
    ⟨⟨.ed25519, publicKey.toBytes, publicKey.length_toBytes⟩, Sample.secret .ed25519, rfl⟩
  have hbefore : Text.AllBlank "\u3000" := by simp [Text.AllBlank, Text.isBlank]
  have hafter : Text.AllBlank "\r\n" := by simp [Text.AllBlank, Text.isBlank]
  have h := key.secretText_survives.1 _ _ hbefore hafter
  exact ⟨key, rfl, rfl, hbefore, hafter, (h none (by simp)).1,
    (h (some .ed25519) (by simp [key, curve])).2 rfl⟩

end TezosWallet.Key
