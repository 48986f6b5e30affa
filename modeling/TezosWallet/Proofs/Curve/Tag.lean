import TezosWallet.Proofs.Base58.Version
import TezosWallet.Key.Import

/-!
# What a text tells of its identifier

The first characters of a well-formed identifier tell its curve, if it has one, and on Ed25519 the
length of a written secret tells a bare seed from a seed with its public key.

## Main definitions

* `Curve.versions` — the versions of a curve's identifiers.

## Main results

* `Version.curve_encode` — the tags of all versions of a curve, and of no others, tell it.
* `Version.encode_readable` — tag, length, curve and form of every well-formed identifier.
-/

namespace TezosWallet

/-- The versions of a curve's identifiers. -/
def Curve.versions (curve : Curve) : List Version :=
  [curve.addressVersion, curve.publicKeyVersion, curve.secretKeyVersion,
    curve.encryptedSecretVersion, curve.signatureVersion] ++
    if curve = .ed25519 then [.edskSeed] else []

/-- The curve that a version belongs to, if it belongs to one. -/
def Version.curve? (v : Version) : Option Curve := Curve.all.find? fun curve => v ∈ curve.versions

namespace Version

variable {v : Version} {payload : Bytes}

/-- Which curve a text tells is settled by any tag that it begins with. -/
theorem ofText?_of_tag {text : String} {tail : List Char}
    (htext : text.toList = v.tag.toList ++ tail) : Curve.ofText? text = v.curve? := by
  rw [Curve.ofText?]
  simp only [Text.hasTag, htext]
  cases v <;> rfl

/-- A well-formed identifier tells the curve of its version. -/
theorem curve_encode (hsize : payload.length = v.payloadSize) :
    Curve.ofText? (Base58Check.encode v.bytes payload) = v.curve? := by
  obtain ⟨tail, -, htext⟩ := encode_eq_append hsize
  exact ofText?_of_tag htext

theorem curve?_eq_some (curve : Curve) (hv : v ∈ curve.versions) : v.curve? = some curve := by
  revert hv
  cases curve <;> cases v <;> decide

/-- A well-formed identifier tells its curve also where only certain tags may, its own among
them. -/
theorem ofTextAmong?_encode {tags : List String} (htag : v.tag ∈ tags)
    (hsize : payload.length = v.payloadSize) :
    Curve.ofTextAmong? tags (Base58Check.encode v.bytes payload) = v.curve? := by
  have hamong : Text.hasTagAmong tags (Base58Check.encode v.bytes payload) = true :=
    List.any_eq_true.mpr ⟨v.tag, htag, hasTag_encode hsize⟩
  rw [Curve.ofTextAmong?, if_pos hamong, curve_encode hsize]

/-- A written secret of Ed25519 is read under its own version: the lengths of the two forms
differ. -/
theorem versionOfText_encode (hv : v = .edskSeed ∨ v = .edsk)
    (hsize : payload.length = v.payloadSize) :
    Key.versionOfText .ed25519 (Base58Check.encode v.bytes payload) = v := by
  rw [Key.versionOfText, utf8ByteSize_encode hsize]
  rcases hv with rfl | rfl <;> rfl

/-- Every well-formed identifier begins with the tag of its version and has the length of its
version. Its first characters tell the curve that the version belongs to, and the two forms of a
written Ed25519 secret are told apart. -/
theorem encode_readable (v : Version) (payload : FixedBytes v.payloadSize) :
    Text.hasTag v.tag (Base58Check.encode v.bytes payload.toBytes) = true ∧
      (Base58Check.encode v.bytes payload.toBytes).length = v.textLength ∧
      (∀ curve : Curve, v ∈ curve.versions →
        Curve.ofText? (Base58Check.encode v.bytes payload.toBytes) = some curve) ∧
      (v = .edskSeed ∨ v = .edsk →
        Key.versionOfText .ed25519 (Base58Check.encode v.bytes payload.toBytes) = v) :=
  ⟨hasTag_encode payload.length_toBytes, length_encode payload.length_toBytes,
    fun curve hv => (curve_encode payload.length_toBytes).trans (curve?_eq_some curve hv),
    fun hv => versionOfText_encode hv payload.length_toBytes⟩

/-- The seed of thirty-two zero bytes. -/
theorem encode_readable_zeroSeed :
    Version.edskSeed ∈ Curve.versions .ed25519 ∧
      Curve.ofText? (Base58Check.encode Version.edskSeed.bytes (List.replicate 32 0)) =
        some .ed25519 ∧
      Key.versionOfText .ed25519
        (Base58Check.encode Version.edskSeed.bytes (List.replicate 32 0)) = .edskSeed :=
  have h := encode_readable .edskSeed ⟨List.replicate 32 0, rfl⟩
  ⟨by decide, h.2.2.1 .ed25519 (by decide), h.2.2.2 (.inl rfl)⟩

end Version

end TezosWallet
