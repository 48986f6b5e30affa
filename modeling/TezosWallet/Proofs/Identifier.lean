import TezosWallet.Proofs.Curve.Tag

/-!
# Written identifiers

Addresses, public keys and signatures are read by looking at the tag of a text first and at its
version bytes then. As the version bytes of every identifier bring about its tag, reading accepts
exactly what writing gives.

## Main results

* `Address.ofText_eq_ok_iff`, `PublicKey.ofText_eq_ok_iff`, `Signature.ofText_eq_ok_iff`,
  `Signature.bytesOfText_eq_ok_iff` — the accepted texts of each kind.
* `identifier_texts_exact` — all of them at once.
-/

namespace TezosWallet

variable {text : String}

/-! ### Versions of a curve -/

theorem Curve.size_addressVersion (curve : Curve) : curve.addressVersion.payloadSize = 20 := by
  cases curve <;> rfl

theorem Curve.size_publicKeyVersion (curve : Curve) :
    curve.publicKeyVersion.payloadSize = curve.publicKeySize := by
  cases curve <;> rfl

theorem Curve.size_signatureVersion (curve : Curve) : curve.signatureVersion.payloadSize = 64 := by
  cases curve <;> rfl

/-- A tag that does not begin as the version's tag does is no tag of its identifiers. -/
theorem Version.hasTag_encode_eq_false {v : Version} {payload : Bytes} {tag : String}
    (hsize : payload.length = v.payloadSize) (hle : tag.length ≤ v.tag.length)
    (htag : tag.toList.isPrefixOf v.tag.toList = false) :
    Text.hasTag tag (Base58Check.encode v.bytes payload) = false := by
  obtain ⟨tail, -, htext⟩ := Version.encode_eq_append hsize
  rw [← Bool.not_eq_true, List.isPrefixOf_iff_prefix] at htag
  rw [Text.hasTag, htext, ← Bool.not_eq_true, List.isPrefixOf_iff_prefix]
  intro hprefix
  refine htag (List.prefix_of_prefix_length_le hprefix (List.prefix_append _ _) ?_)
  rwa [String.length_toList, String.length_toList]

/-! ### Addresses -/

theorem Address.ofText_toText (address : Address) :
    Address.ofText address.toText = .ok address := by
  cases address with
  | originated hash =>
    have htag : Text.hasTag "KT1" (Address.originated hash).toText = true :=
      Version.hasTag_encode (v := .kt1) hash.length_toBytes
    rw [Address.ofText, if_pos htag]
    simp only [Base58Check.decodeFixed_eq_ok_iff.mpr (Eq.refl (Address.originated hash).toText)]
    rfl
  | implicit curve hash =>
    have hsize : hash.toBytes.length = curve.addressVersion.payloadSize := by
      rw [hash.length_toBytes, curve.size_addressVersion]
    have htag : Text.hasTag "KT1" (Address.implicit curve hash).toText = false :=
      Version.hasTag_encode_eq_false hsize (by cases curve <;> decide) (by cases curve <;> decide)
    have hcurve : Curve.ofTextAmong? Curve.addressTags (Address.implicit curve hash).toText =
        some curve :=
      (Version.ofTextAmong?_encode (by cases curve <;> decide) hsize).trans
        (Version.curve?_eq_some curve (by simp [Curve.versions]))
    rw [Address.ofText, if_neg (by rw [htag]; exact Bool.false_ne_true), hcurve]
    simp only [Base58Check.decodeFixed_eq_ok_iff.mpr (Eq.refl (Address.implicit curve hash).toText)]
    rfl

theorem Address.ofText_eq_ok_iff {address : Address} :
    Address.ofText text = .ok address ↔ text = address.toText := by
  refine ⟨fun h => ?_, fun h => h ▸ address.ofText_toText⟩
  rw [Address.ofText] at h
  split at h
  · obtain ⟨hash, hhash, h⟩ := Outcome.bind_eq_ok_iff.mp h
    cases h
    exact Base58Check.decodeFixed_eq_ok_iff.mp (Outcome.mapError_eq_ok_iff.mp hhash)
  · split at h
    · cases h
    · obtain ⟨hash, hhash, h⟩ := Outcome.bind_eq_ok_iff.mp h
      cases h
      exact Base58Check.decodeFixed_eq_ok_iff.mp (Outcome.mapError_eq_ok_iff.mp hhash)

/-! ### Public keys -/

theorem PublicKey.ofText_toText (key : PublicKey) : PublicKey.ofText key.toText = .ok key := by
  have hsize : key.bytes.length = key.curve.publicKeyVersion.payloadSize := by
    rw [key.length_bytes, key.curve.size_publicKeyVersion]
  have hcurve : Curve.ofTextAmong? Curve.publicKeyTags key.toText = some key.curve :=
    (Version.ofTextAmong?_encode (by cases key.curve <;> decide) hsize).trans
      (Version.curve?_eq_some key.curve (by simp [Curve.versions]))
  rw [PublicKey.ofText, hcurve]
  simp only [Base58Check.decode_eq_ok_iff.mpr (Eq.refl key.toText), Outcome.mapError_ok,
    Outcome.ok_bind, PublicKey.ofBytes, dif_pos key.length_bytes]

theorem PublicKey.ofText_eq_ok_iff {key : PublicKey} :
    PublicKey.ofText text = .ok key ↔ text = key.toText := by
  refine ⟨fun h => ?_, fun h => h ▸ key.ofText_toText⟩
  rw [PublicKey.ofText] at h
  split at h
  · cases h
  · obtain ⟨bytes, hbytes, h⟩ := Outcome.bind_eq_ok_iff.mp h
    rw [PublicKey.ofBytes] at h
    split at h
    · cases h
      exact Base58Check.decode_eq_ok_iff.mp (Outcome.mapError_eq_ok_iff.mp hbytes)
    · cases h

/-! ### Signatures -/

theorem Signature.size_version (signature : Signature) :
    signature.bytes.toBytes.length = signature.curve.signatureVersion.payloadSize := by
  rw [signature.bytes.length_toBytes, signature.curve.size_signatureVersion]

theorem Signature.ofText_toText (signature : Signature) :
    Signature.ofText signature.toText = .ok signature := by
  have hcurve : Curve.ofText? signature.toText = some signature.curve :=
    (Version.curve_encode signature.size_version).trans
      (Version.curve?_eq_some signature.curve (by simp [Curve.versions]))
  rw [Signature.ofText, hcurve]
  simp only [Base58Check.decodeFixed_eq_ok_iff.mpr (Eq.refl signature.toText), Outcome.ok_bind]
  rfl

theorem Signature.ofText_eq_ok_iff {signature : Signature} :
    Signature.ofText text = .ok signature ↔ text = signature.toText := by
  refine ⟨fun h => ?_, fun h => h ▸ signature.ofText_toText⟩
  rw [Signature.ofText] at h
  split at h
  · cases h
  · obtain ⟨bytes, hbytes, h⟩ := Outcome.bind_eq_ok_iff.mp h
    cases h
    exact Base58Check.decodeFixed_eq_ok_iff.mp hbytes

/-- The bytes of a signature are read from each of its two written forms, and from no other
text. -/
theorem Signature.bytesOfText_eq_ok_iff {bytes : FixedBytes 64} :
    Signature.bytesOfText text = .ok bytes ↔
      (∃ curve, text = Signature.toText ⟨curve, bytes⟩) ∨ text = Signature.genericText bytes := by
  rw [Signature.bytesOfText]
  constructor
  · intro h
    split at h
    · exact .inr (Base58Check.decodeFixed_eq_ok_iff.mp h)
    · obtain ⟨signature, hsignature, h⟩ := Outcome.bind_eq_ok_iff.mp h
      cases h
      exact .inl ⟨signature.curve, Signature.ofText_eq_ok_iff.mp hsignature⟩
  · rintro (⟨curve, rfl⟩ | rfl)
    · have htag : Text.hasTag "sig" (Signature.toText ⟨curve, bytes⟩) = false :=
        Version.hasTag_encode_eq_false (v := curve.signatureVersion)
          (Signature.size_version ⟨curve, bytes⟩)
          (by cases curve <;> decide) (by cases curve <;> decide)
      rw [if_neg (by rw [htag]; exact Bool.false_ne_true), Signature.ofText_toText]
      rfl
    · have htag : Text.hasTag "sig" (Signature.genericText bytes) = true :=
        Version.hasTag_encode (v := .genericSig) bytes.length_toBytes
      rw [if_pos htag]
      exact Base58Check.decodeFixed_eq_ok_iff.mpr rfl

/-- Each identifier has exactly one text of its kind, and no other text is accepted. Signature
bytes have one text for each curve and a generic one. -/
theorem identifier_texts_exact (text : String) :
    (∀ address, Address.ofText text = .ok address ↔ text = address.toText) ∧
      (∀ key, PublicKey.ofText text = .ok key ↔ text = key.toText) ∧
      (∀ signature, Signature.ofText text = .ok signature ↔ text = signature.toText) ∧
      (∀ bytes, Signature.bytesOfText text = .ok bytes ↔
        (∃ curve, text = Signature.toText ⟨curve, bytes⟩) ∨
          text = Signature.genericText bytes) :=
  ⟨fun _ => Address.ofText_eq_ok_iff, fun _ => PublicKey.ofText_eq_ok_iff,
    fun _ => Signature.ofText_eq_ok_iff, fun _ => Signature.bytesOfText_eq_ok_iff⟩

end TezosWallet
