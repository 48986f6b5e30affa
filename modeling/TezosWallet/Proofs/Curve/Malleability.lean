import TezosWallet.Proofs.Curve.Signing
import TezosWallet.Sample

/-!
# One form of each Secp256k1 signature

A signature has two forms: the second number can be replaced by what it lacks to the order of the
group. As the order is odd, exactly one of the two second numbers is at most half of it.
Verification on Secp256k1 wants that one, so nobody can turn an accepted signature into another,
and signing gives it.

## Main definitions

* `Ecdsa.Pair.written` — the two numbers of sixty-four bytes, in range or not.
* `Ecdsa.Pair.mirror` — the other form of a signature.

## Main results

* `Ecdsa.isLow_mirror` — exactly one of the two forms is low.
* `Curve.verify_secp256k1_iff` — what verification asks for.
* `Curve.secp256k1_not_malleable` — of two forms at most one is accepted, and signing gives it.
-/

namespace TezosWallet

/-! ### The two forms of a signature -/

namespace Ecdsa

variable {C : ShortCurve} {bytes : FixedBytes 64} {sig : Pair}

/-- The two numbers that sixty-four bytes write, whether or not they are in range. -/
def Pair.written (bytes : FixedBytes 64) : Pair :=
  ⟨Bytes.toNatBE (bytes.toBytes.take 32), Bytes.toNatBE (bytes.toBytes.drop 32)⟩

/-- The other form of a signature. -/
def Pair.mirror (C : ShortCurve) (sig : Pair) : Pair := ⟨sig.r, C.order - sig.s⟩

/-- A signature is read as the numbers that it writes if both are in range. -/
theorem ofBytes?_eq_some_iff : Pair.ofBytes? C bytes = some sig ↔
    sig = .written bytes ∧ inRange C sig.r = true ∧ inRange C sig.s = true := by
  rw [Pair.ofBytes?]
  split
  · next hrange =>
    constructor
    · rintro ⟨⟩
      exact ⟨rfl, Bool.and_eq_true_iff.mp hrange⟩
    · rintro ⟨rfl, -⟩
      rfl
  · next hrange =>
    refine iff_of_false (by simp) ?_
    rintro ⟨rfl, hboth⟩
    exact hrange (Bool.and_eq_true_iff.mpr hboth)

theorem toBytes_written (bytes : FixedBytes 64) : (Pair.written bytes).toBytes = bytes := by
  have hsize := bytes.length_toBytes
  have htake : (bytes.toBytes.take 32).length = 32 := by rw [List.length_take, hsize]; rfl
  have hdrop : (bytes.toBytes.drop 32).length = 32 := by rw [List.length_drop, hsize]
  have hfirst := Bytes.ofNatBE_toNatBE (bytes.toBytes.take 32)
  have hsecond := Bytes.ofNatBE_toNatBE (bytes.toBytes.drop 32)
  rw [htake] at hfirst
  rw [hdrop] at hsecond
  apply FixedBytes.ext
  change Bytes.ofNatBE 32 (Bytes.toNatBE (bytes.toBytes.take 32)) ++
    Bytes.ofNatBE 32 (Bytes.toNatBE (bytes.toBytes.drop 32)) = bytes.toBytes
  rw [hfirst, hsecond, List.take_append_drop]

theorem isLow_iff : sig.isLow C = true ↔ sig.s ≤ C.order / 2 := decide_eq_true_iff

theorem inRange_mirror (hs : inRange C sig.s = true) : inRange C (sig.mirror C).s = true := by
  obtain ⟨hpos, hlt⟩ := inRange_iff.mp hs
  exact inRange_iff.mpr ⟨Nat.sub_pos_of_lt hlt, Nat.sub_lt (hpos.trans hlt) hpos⟩

variable [ShortCurve.IsStandard C]

theorem written_toBytes (sig : Pair) (hr : inRange C sig.r = true) (hs : inRange C sig.s = true) :
    Pair.written sig.toBytes = sig :=
  (ofBytes?_eq_some_iff.mp (ofBytes?_toBytes ShortCurve.IsStandard.order_lt hr hs)).1.symm

/-- Exactly one of the two forms is low: the order is odd, so that no second number is its own
mirror image. -/
theorem isLow_mirror (hs : inRange C sig.s = true) :
    (sig.mirror C).isLow C = true ↔ ¬ sig.isLow C = true := by
  obtain ⟨hpos, hlt⟩ := inRange_iff.mp hs
  have htwo : 2 < C.order := ShortCurve.IsStandard.two_lt_order
  have hodd := (ShortCurve.IsStandard.order_prime (C := C)).eq_two_or_odd
  have hmirror : (sig.mirror C).s = C.order - sig.s := rfl
  rw [isLow_iff, isLow_iff, hmirror]
  omega

end Ecdsa

/-! ### Verification and signing -/

namespace Curve

open Ecdsa

variable {message pub : Bytes} {sig : FixedBytes 64}

/-- Sixty-four bytes are accepted under bytes that are read as a point if they write numbers in
range, the second of them low, that satisfy the equation of the point. -/
theorem verify_secp256k1_iff : verify .secp256k1 message sig pub = true ↔
    ∃ key, ShortCurve.secp256k1.decode? pub = some key ∧
      inRange .secp256k1 (Pair.written sig).r = true ∧
      inRange .secp256k1 (Pair.written sig).s = true ∧
      (Pair.written sig).isLow .secp256k1 = true ∧
      Ecdsa.verify .secp256k1 key (Blake2b.digest256 message) (.written sig) = true := by
  rw [verify]
  constructor
  · intro h
    split at h
    · next key pair hkey hpair =>
      obtain ⟨rfl, hr, hs⟩ := ofBytes?_eq_some_iff.mp hpair
      obtain ⟨hlow, hverify⟩ := Bool.and_eq_true_iff.mp h
      exact ⟨key, hkey, hr, hs, hlow, hverify⟩
    · cases h
  · rintro ⟨key, hkey, hr, hs, hlow, hverify⟩
    rw [hkey, ofBytes?_eq_some_iff.mpr ⟨rfl, hr, hs⟩]
    exact Bool.and_eq_true_iff.mpr ⟨hlow, hverify⟩

/-- What a secret signs on Secp256k1 writes numbers in range, the second of them low. -/
theorem range_of_sign_secp256k1 {secret : FixedBytes 32} {signature : Signature}
    (h : sign .secp256k1 message secret = .ok signature) :
    inRange .secp256k1 (Pair.written signature.bytes).r = true ∧
      inRange .secp256k1 (Pair.written signature.bytes).s = true ∧
      (Pair.written signature.bytes).isLow .secp256k1 = true := by
  obtain ⟨pair, hpair, hsig⟩ := Outcome.bind_eq_ok_iff.mp h
  cases hsig
  obtain ⟨n, -, hsolves⟩ := solves_of_signDigest hpair
  obtain ⟨hwritten, hr, hs⟩ := ofBytes?_eq_some_iff.mp (ofBytes?_toBytes_of_solves hsolves.lower)
  rw [← hwritten]
  exact ⟨hr, hs, isLow_lower hsolves⟩

/-- Nobody can turn a signature that is accepted on Secp256k1 into its other form: of the two forms
at most one is accepted, whatever the message and the public key. All sixty-four bytes are refused
whose second number is above half the order or that write a number out of range. What a secret
signs is not among them, so that only the equation of the public key decides about it. -/
theorem secp256k1_not_malleable :
    (∀ (message pub : Bytes) (pair : Pair), 1 ≤ pair.r → pair.r < ShortCurve.secp256k1.order →
      1 ≤ pair.s → pair.s < ShortCurve.secp256k1.order →
        ¬ (verify .secp256k1 message pair.toBytes pub = true ∧
          verify .secp256k1 message (pair.mirror .secp256k1).toBytes pub = true)) ∧
    (∀ (message pub : Bytes) (sig : FixedBytes 64),
      ShortCurve.secp256k1.order / 2 < (Pair.written sig).s ∨
        (Pair.written sig).r = 0 ∨ ShortCurve.secp256k1.order ≤ (Pair.written sig).r ∨
        (Pair.written sig).s = 0 ∨ ShortCurve.secp256k1.order ≤ (Pair.written sig).s →
        verify .secp256k1 message sig pub = false) ∧
    ∀ (message : Bytes) (secret : FixedBytes 32) (signature : Signature),
      sign .secp256k1 message secret = .ok signature →
        1 ≤ (Pair.written signature.bytes).s ∧
        (Pair.written signature.bytes).s ≤ ShortCurve.secp256k1.order / 2 ∧
        ∀ message' pub key, ShortCurve.secp256k1.decode? pub = some key →
          verify .secp256k1 message' signature.bytes pub = Ecdsa.verify .secp256k1 key
            (Blake2b.digest256 message') (.written signature.bytes) := by
  refine ⟨fun message pub pair hr hrlt hs hslt => ?_, fun message pub sig hbad => ?_,
    fun message secret signature hsign => ?_⟩
  · have hrange := inRange_iff.mpr ⟨hr, hrlt⟩
    have hform := inRange_iff.mpr ⟨hs, hslt⟩
    rintro ⟨hverify, hverify'⟩
    obtain ⟨-, -, -, -, hlow, -⟩ := verify_secp256k1_iff.mp hverify
    obtain ⟨-, -, -, -, hlow', -⟩ := verify_secp256k1_iff.mp hverify'
    rw [written_toBytes pair hrange hform] at hlow
    rw [written_toBytes (pair.mirror _) hrange (inRange_mirror hform)] at hlow'
    exact (isLow_mirror hform).mp hlow' hlow
  · rw [← Bool.not_eq_true, verify_secp256k1_iff]
    rintro ⟨-, -, hr, hs, hlow, -⟩
    have hr := inRange_iff.mp hr
    have hs := inRange_iff.mp hs
    have hlow := isLow_iff.mp hlow
    omega
  · obtain ⟨hr, hs, hlow⟩ := range_of_sign_secp256k1 hsign
    refine ⟨(inRange_iff.mp hs).1, isLow_iff.mp hlow, fun message' pub key hkey => ?_⟩
    rw [Bool.eq_iff_iff, verify_secp256k1_iff]
    simp [hkey, hr, hs, hlow]

/-- What the secret one signs is accepted under its public key and cannot be turned around.
Sixty-four zero bytes are no signature at all. -/
theorem secp256k1_not_malleable_secretOne : ∃ signature pub,
    sign .secp256k1 [3] (Sample.secret .secp256k1) = .ok signature ∧
      derivePublicKey .secp256k1 (Sample.secret .secp256k1) = .ok pub ∧
      (Pair.written signature.bytes).s ≤ ShortCurve.secp256k1.order / 2 ∧
      verify .secp256k1 [3] signature.bytes pub = true ∧
      verify .secp256k1 [3] ((Pair.written signature.bytes).mirror .secp256k1).toBytes pub =
        false ∧
      (Pair.written (.ofNatBE 64 0)).r = 0 ∧
      verify .secp256k1 [3] (.ofNatBE 64 0) pub = false := by
  obtain ⟨signature, hsign⟩ : ∃ signature,
      sign .secp256k1 [3] (Sample.secret .secp256k1) = .ok signature :=
    Outcome.exists_of_isOk (by decide +kernel)
  obtain ⟨-, pub, hpub, -⟩ | ⟨hadmits, -⟩ :=
    derivePublicKey_cases .secp256k1 (Sample.secret .secp256k1)
  · obtain ⟨hforms, hrefused, hsigned⟩ := secp256k1_not_malleable
    obtain ⟨hr, hs, -⟩ := range_of_sign_secp256k1 hsign
    obtain ⟨hrpos, hrlt⟩ := inRange_iff.mp hr
    obtain ⟨hspos, hslt⟩ := inRange_iff.mp hs
    have hverify := (verify_of_sign hpub hsign).2
    have hzero : (Pair.written (.ofNatBE 64 0)).r = 0 := by decide +kernel
    have hother := hforms [3] pub _ hrpos hrlt hspos hslt
    rw [toBytes_written, hverify] at hother
    exact ⟨signature, pub, hsign, hpub, (hsigned _ _ _ hsign).2.1, hverify,
      Bool.eq_false_iff.mpr fun h => hother ⟨rfl, h⟩, hzero, hrefused _ _ _ (.inr (.inl hzero))⟩
  · exact absurd ⟨by decide +kernel, by decide +kernel⟩ hadmits

end Curve

end TezosWallet
