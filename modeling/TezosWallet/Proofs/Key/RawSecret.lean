import TezosWallet.Proofs.Base64
import TezosWallet.Proofs.Hex
import TezosWallet.Proofs.Key.SecretText

/-!
# Raw secrets in writing

A raw secret may be written in hexadecimal, in base64 and, on the curves with ECDSA, as an
identifier. Each of these texts is read as the bytes that it writes, whatever their number, and
blanks around it do not matter. So the bytes make the same key, or are refused for the same reason,
in every form.

## Main results

* `Key.ofHex_of_writes`, `Key.ofBase64_encode`, `Key.ofSecretText_encode_ecdsa` — the single forms.
* `Key.raw_imports_agree` — all of them at once.
-/

namespace TezosWallet.Key

variable {before after : String}

/-- Every hexadecimal text of bytes is imported as the bytes. -/
theorem ofHex_of_writes (curve : Curve) {text : String} {bytes : Bytes}
    (htext : Hex.Writes text bytes) (hbefore : Text.AllBlank before)
    (hafter : Text.AllBlank after) :
    ofHex curve (before ++ text ++ after) = ofBytes curve bytes := by
  have htrim : Text.trim (before ++ text ++ after) = text := by
    rw [Text.trim_append hbefore hafter, Text.trim_eq_self fun c => Hex.isBlank_of_writes htext]
  rw [ofHex, htrim, Hex.decode_of_writes htext]
  rfl

/-- The base64 text of bytes is imported as the bytes. -/
theorem ofBase64_encode (curve : Curve) (bytes : Bytes) (hbefore : Text.AllBlank before)
    (hafter : Text.AllBlank after) :
    ofBase64 curve (before ++ Base64.encode bytes ++ after) = ofBytes curve bytes := by
  have htrim : Text.trim (before ++ Base64.encode bytes ++ after) = Base64.encode bytes := by
    rw [Text.trim_append hbefore hafter, Text.trim_eq_self fun c => Base64.isBlank_of_mem_encode]
  rw [ofBase64, htrim, Base64.decode_encode]
  rfl

/-- On the curves with ECDSA the identifier of bytes is imported as the bytes, if the curve is
given: without it a text of the wrong length may not tell its curve. -/
theorem ofSecretText_encode_ecdsa {curve : Curve} (hcurve : curve ≠ .ed25519) (bytes : Bytes)
    (hbefore : Text.AllBlank before) (hafter : Text.AllBlank after) :
    ofSecretText (before ++ Base58Check.encode curve.secretKeyVersion.bytes bytes ++ after)
      (some curve) = ofBytes curve bytes :=
  ofSecretText_encode rfl (if_neg fun h => hcurve h.1) hbefore hafter

/-- All ways to import raw bytes agree, also on bytes that make no key: a hexadecimal text in any
case, the base64 text and, on the curves with ECDSA, the identifier. -/
theorem raw_imports_agree (curve : Curve) (bytes : Bytes) (hbefore : Text.AllBlank before)
    (hafter : Text.AllBlank after) :
    (∀ text, Hex.Writes text bytes →
        ofHex curve (before ++ text ++ after) = ofBytes curve bytes) ∧
      ofBase64 curve (before ++ Base64.encode bytes ++ after) = ofBytes curve bytes ∧
      (curve ≠ .ed25519 →
        ofSecretText (before ++ Base58Check.encode curve.secretKeyVersion.bytes bytes ++ after)
          (some curve) = ofBytes curve bytes) :=
  ⟨fun _ htext => ofHex_of_writes curve htext hbefore hafter,
    ofBase64_encode curve bytes hbefore hafter,
    fun hcurve => ofSecretText_encode_ecdsa hcurve bytes hbefore hafter⟩

/-- Two bytes, which are too few for a secret, in mixed case and between blanks. -/
theorem raw_imports_agree_twoBytes :
    Text.AllBlank "\u3000" ∧ Text.AllBlank "\r\n" ∧ Hex.Writes "aBCd" [0xab, 0xcd] ∧
      Curve.p256 ≠ .ed25519 ∧
      ofHex .p256 ("\u3000" ++ "aBCd" ++ "\r\n") = .error (.invalidLength 32 2) ∧
      ofBase64 .p256 ("\u3000" ++ "q80=" ++ "\r\n") = .error (.invalidLength 32 2) ∧
      ofSecretText ("\u3000" ++ Base58Check.encode Version.p2sk.bytes [0xab, 0xcd] ++ "\r\n")
        (some .p256) = .error (.invalidLength 32 2) := by
  have hbefore : Text.AllBlank "\u3000" := by simp [Text.AllBlank, Text.isBlank]
  have hafter : Text.AllBlank "\r\n" := by simp [Text.AllBlank, Text.isBlank]
  have htext : Hex.Writes "aBCd" [0xab, 0xcd] := by decide +kernel
  have hcurve : Curve.p256 ≠ .ed25519 := by decide
  obtain ⟨hhex, hbase64, hidentifier⟩ :=
    raw_imports_agree .p256 [0xab, 0xcd] hbefore hafter
  exact ⟨hbefore, hafter, htext, hcurve, hhex _ htext, hbase64, hidentifier hcurve⟩

end TezosWallet.Key
