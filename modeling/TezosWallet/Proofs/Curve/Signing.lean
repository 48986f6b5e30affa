import TezosWallet.Curve.Signing
import TezosWallet.Proofs.Curve.Ecdsa
import TezosWallet.Proofs.Curve.Edwards25519
import TezosWallet.Proofs.Outcome

/-!
# Signatures on the three curves

On each curve, whatever a secret signs is accepted under the public key derived from it. On
Secp256k1 this takes that the lower form of a signature is as right as the form that signing
draws, and that it is low. A secret has a public key exactly if its number is in range, which is
also what signing asks for.

## Main definitions

* `Curve.Admits` — bytes that are a secret of a curve.

## Main results

* `Curve.verify_of_sign` — what is signed is accepted.
* `Curve.derivePublicKey_cases` — the secrets of a curve.
* `Curve.eq_signing_of_sign` — a secret with a public key is not refused when it signs.
-/

namespace TezosWallet

/-! ### The two curves with ECDSA -/

section Ecdsa

open Ecdsa

variable {C : ShortCurve} {curve : Curve} {secret digest : FixedBytes 32} {pub : Bytes}
  {pair : Pair}

/-- A secret with a public key is a number in range. -/
theorem exists_scalar?_of_publicKey? (h : publicKey? C secret = some pub) :
    ∃ n, scalar? C secret = some n ∧ inRange C n = true ∧ publicKeyOf C n = pub := by
  rw [publicKey?, Option.map_eq_some_iff] at h
  obtain ⟨n, hn, hpub⟩ := h
  refine ⟨n, hn, ?_, hpub⟩
  rw [scalar?] at hn
  split at hn
  · next hrange => exact Option.some.inj hn ▸ hrange
  · cases hn

variable [ShortCurve.IsStandard C]

/-- Only a secret in range draws a pair for a digest, and the pair solves the equation of the
secret's number. -/
theorem solves_of_signDigest (hsign : curve.signDigest C secret digest = .ok pair) :
    ∃ n, scalar? C secret = some n ∧ Solves C n digest pair := by
  rw [Curve.signDigest] at hsign
  split at hsign
  · cases hsign
  · next n hn => exact ⟨n, hn, solves_of_sign? (Outcome.elim_eq_ok_iff.mp hsign)⟩

/-- The pair that a secret draws for a digest solves the equation of the secret's number, whose
multiple of the base point is what the public key is read as. -/
theorem exists_solves_of_signDigest (hpub : publicKey? C secret = some pub)
    (hsign : curve.signDigest C secret digest = .ok pair) :
    ∃ key n, C.decode? pub = some key ∧ C.Represents key (n • C.generator) ∧
      Solves C n digest pair := by
  obtain ⟨n, hn, hrange, rfl⟩ := exists_scalar?_of_publicKey? hpub
  obtain ⟨m, hm, hsolves⟩ := solves_of_signDigest hsign
  obtain rfl : n = m := Option.some.inj (hn.symm.trans hm)
  obtain ⟨key, hdecode, hkey⟩ := exists_decode?_publicKeyOf hrange
  exact ⟨key, n, hdecode, hkey, hsolves⟩

/-- A secret in range has a public key of thirty-three bytes, and any other has none. -/
theorem elim_publicKey?_cases (C : ShortCurve) [ShortCurve.IsStandard C] (secret : FixedBytes 32)
    (fault : CurveError) :
    ((1 ≤ Bytes.toNatBE secret.toBytes ∧ Bytes.toNatBE secret.toBytes < C.order) ∧
      ∃ pub, (publicKey? C secret).elim (.error fault) .ok = (.ok pub : Except CurveError Bytes) ∧
        pub.length = 33) ∨
    (¬ (1 ≤ Bytes.toNatBE secret.toBytes ∧ Bytes.toNatBE secret.toBytes < C.order) ∧
      (publicKey? C secret).elim (.error fault) .ok =
        (.error fault : Except CurveError Bytes)) := by
  by_cases hrange : inRange C (Bytes.toNatBE secret.toBytes) = true
  · refine .inl ⟨inRange_iff.mp hrange, _, ?_, length_publicKeyOf hrange⟩
    rw [publicKey?, scalar?, if_pos hrange, Option.map_some]
    rfl
  · refine .inr ⟨inRange_iff.not.mp hrange, ?_⟩
    rw [publicKey?, scalar?, if_neg hrange, Option.map_none]
    rfl

theorem ofBytes?_toBytes_of_solves {n : Nat} (h : Solves C n digest pair) :
    Pair.ofBytes? C pair.toBytes = some pair :=
  ofBytes?_toBytes ShortCurve.IsStandard.order_lt h.r_inRange h.s_inRange

end Ecdsa

namespace Curve

variable {curve : Curve} {message pub : Bytes} {secret : FixedBytes 32} {sig : Signature}

/-! ### Secrets of a curve -/

/-- The bytes are a secret of the curve: on Ed25519 any bytes, on the other curves those of a
number from one to below the order of the group. -/
def Admits (curve : Curve) (bytes : Bytes) : Prop :=
  match curve with
  | ed25519 => True
  | secp256k1 =>
    1 ≤ Bytes.toNatBE bytes ∧ Bytes.toNatBE bytes < ShortCurve.secp256k1.order
  | p256 => 1 ≤ Bytes.toNatBE bytes ∧ Bytes.toNatBE bytes < ShortCurve.p256.order

/-- A secret of the curve has a public key of the curve's size, and other bytes are refused. -/
theorem derivePublicKey_cases (curve : Curve) (secret : FixedBytes 32) :
    (curve.Admits secret.toBytes ∧
      ∃ pub, curve.derivePublicKey secret = .ok pub ∧ pub.length = curve.publicKeySize) ∨
    (¬ curve.Admits secret.toBytes ∧
      curve.derivePublicKey secret = .error (.keyDerivation curve)) := by
  cases curve with
  | ed25519 => exact .inl ⟨trivial, _, rfl, FixedBytes.length_toBytes _⟩
  | secp256k1 => exact elim_publicKey?_cases .secp256k1 secret _
  | p256 => exact elim_publicKey?_cases .p256 secret _

/-! ### Signing under a derived key -/

/-- A secret with a public key is not refused when a digest is signed. -/
theorem eq_signing_of_signDigest {C : ShortCurve} {digest : FixedBytes 32} {fault : CurveError}
    (hpub : Ecdsa.publicKey? C secret = some pub)
    (hsign : curve.signDigest C secret digest = .error fault) : fault = .signing curve := by
  obtain ⟨n, hn, -, -⟩ := exists_scalar?_of_publicKey? hpub
  rw [signDigest, hn] at hsign
  exact (Outcome.elim_eq_error_iff.mp hsign).2

/-- Signing under a secret with a public key fails for want of a nonce only. -/
theorem eq_signing_of_sign {fault : CurveError} (hpub : curve.derivePublicKey secret = .ok pub)
    (hsign : curve.sign message secret = .error fault) : fault = .signing curve := by
  cases curve with
  | ed25519 => cases hsign
  | secp256k1 | p256 =>
    obtain hdigest | ⟨pair, -, hdone⟩ := Outcome.bind_eq_error_iff.mp hsign
    · exact eq_signing_of_signDigest (Outcome.elim_eq_ok_iff.mp hpub) hdigest
    · cases hdone

/-- What a secret signs carries the curve and is accepted under the derived public key. -/
theorem verify_of_sign (hpub : curve.derivePublicKey secret = .ok pub)
    (hsign : curve.sign message secret = .ok sig) :
    sig.curve = curve ∧ curve.verify message sig.bytes pub = true := by
  cases curve with
  | ed25519 =>
    cases hpub
    cases hsign
    refine ⟨rfl, ?_⟩
    rw [verify, FixedBytes.ofBytes?_toBytes]
    exact Edwards25519.verify_sign _ _
  | secp256k1 =>
    obtain ⟨pair, hpair, hsig⟩ := Outcome.bind_eq_ok_iff.mp hsign
    cases hsig
    obtain ⟨key, n, hdecode, hkey, hsolves⟩ :=
      exists_solves_of_signDigest (Outcome.elim_eq_ok_iff.mp hpub) hpair
    refine ⟨rfl, ?_⟩
    rw [verify, hdecode, ofBytes?_toBytes_of_solves hsolves.lower]
    exact Bool.and_eq_true_iff.mpr
      ⟨Ecdsa.isLow_lower hsolves, Ecdsa.verify_of_solves hkey hsolves.lower⟩
  | p256 =>
    obtain ⟨pair, hpair, hsig⟩ := Outcome.bind_eq_ok_iff.mp hsign
    cases hsig
    obtain ⟨key, n, hdecode, hkey, hsolves⟩ :=
      exists_solves_of_signDigest (Outcome.elim_eq_ok_iff.mp hpub) hpair
    refine ⟨rfl, ?_⟩
    rw [verify, hdecode, ofBytes?_toBytes_of_solves hsolves]
    exact Ecdsa.verify_of_solves hkey hsolves

end Curve

end TezosWallet
