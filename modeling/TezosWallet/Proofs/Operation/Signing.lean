import TezosWallet.Proofs.Curve.Signing
import TezosWallet.Proofs.Operation.Layout
import TezosWallet.Sample

/-!
# Signed operations

A key accepts what it signs. Signing and verification put the same watermark in front of a message,
and the public half of a key is the one derived from its secret.

Forged operations are signed behind a watermark that is always added, while a key that verifies
adds it only where it sees none. The two agree unless the hash of the branch begins with the
watermark's byte.

## Main results

* `Key.verify_of_signMarked` — what a key signs, its public key accepts.
* `Key.signatures_accepted` — the same behind every watermark, and for operations.
* `Watermark.ensure_eq_mark_iff` — where the two ways to add a watermark agree.
* `ForgedOperation.verify_signed` — signed operations under `Key.verify`.
-/

namespace TezosWallet

/-! ### Watermarks -/

namespace Watermark

/-- The watermark is added unless the data begin with its byte. -/
theorem ensure_eq_mark_iff {data : Bytes} :
    ensure data = operation.mark data ↔ data.head? ≠ some operation.byte := by
  rw [ensure]
  split
  · next hmarked =>
    refine iff_of_false (fun h => ?_) (fun h => h hmarked)
    have hlength := congrArg List.length h
    rw [mark, List.length_cons] at hlength
    omega
  · next hnot => exact iff_of_true rfl hnot

end Watermark

/-! ### Keys -/

namespace Key

variable {key : Key} {sig : Signature}

/-- What a key signs carries its curve and is accepted by its public key. -/
theorem verify_of_signMarked {data : Bytes} (h : key.signMarked data = .ok sig) :
    sig.curve = key.curve ∧ key.publicKey.verify data sig = true :=
  Curve.verify_of_sign key.derives (Outcome.mapError_eq_ok_iff.mp h)

theorem verify_of_sign {message : Bytes} (h : key.sign message = .ok sig) :
    sig.curve = key.curve ∧ key.verify message sig = true := by
  obtain ⟨hcurve, hverify⟩ := verify_of_signMarked h
  refine ⟨hcurve, ?_⟩
  rw [verify, hverify, decide_eq_true hcurve, Bool.and_self]

theorem curve_of_signHex {text : String} (h : key.signHex text = .ok sig) :
    sig.curve = key.curve := by
  obtain ⟨message, -, hsign⟩ := Outcome.bind_eq_ok_iff.mp h
  exact (verify_of_sign hsign).1

theorem verify_of_curve_ne {message : Bytes} (h : sig.curve ≠ key.curve) :
    key.verify message sig = false := by
  rw [verify, decide_eq_false h, Bool.false_and]

end Key

/-! ### Operations -/

namespace ForgedOperation

variable {key : Key} {forged : ForgedOperation} {signed : SignedOperation}

/-- The signature of an operation is that of its bytes behind the watermark. -/
theorem signWith_of_sign (h : forged.sign key = .ok signed) :
    signed.forged = forged.bytes ∧
      key.signWith .operation forged.bytes = .ok signed.signature := by
  obtain ⟨sig, hsig, hsigned⟩ := Outcome.bind_eq_ok_iff.mp h
  cases hsigned
  exact ⟨rfl, hsig⟩

theorem verify_of_sign (h : forged.sign key = .ok signed) :
    signed.signature.curve = key.curve ∧
      key.publicKey.verify (Watermark.operation.mark forged.bytes) signed.signature = true :=
  Key.verify_of_signMarked (signWith_of_sign h).2

end ForgedOperation

/-! ### Sample inputs -/

/-- The key of the sample seed. -/
def Sample.seedKey : Key where
  publicKey :=
    ⟨.ed25519, (Edwards25519.publicKey (secret .ed25519)).toBytes, FixedBytes.length_toBytes _⟩
  secret := secret .ed25519
  derives := rfl

/-- The branch whose hash repeats one byte. -/
def Sample.constantBranch (b : UInt8) : String :=
  Base58Check.encode Version.blockHash.bytes (List.replicate 32 b)

theorem Sample.ofContents_constantBranch (b : UInt8) :
    ForgedOperation.ofContents (constantBranch b) [.endorsement 1] =
      .ok ⟨List.replicate 32 b ++ [0, 0, 0, 0, 1]⟩ :=
  ForgedOperation.ofContents_eq_ok_iff.mpr ⟨⟨List.replicate 32 b, rfl⟩, rfl, _, rfl, rfl⟩

/-! ### Signatures of keys and of operations -/

/-- A key accepts what it signs behind the watermark of operations, and its public key what it
signs behind any watermark, also of operations whose branch begins with the watermark's byte.
All these signatures carry the curve of the key, which refuses those of other curves. -/
theorem Key.signatures_accepted (key : Key) :
    (∀ message sig, key.sign message = .ok sig →
      sig.curve = key.curve ∧ key.verify message sig = true) ∧
    (∀ watermark message sig, key.signWith watermark message = .ok sig →
      sig.curve = key.curve ∧ key.publicKey.verify (watermark.byte :: message) sig = true) ∧
    (∀ text sig, key.signHex text = .ok sig → sig.curve = key.curve) ∧
    (∀ message (sig : Signature), sig.curve ≠ key.curve → key.verify message sig = false) ∧
    ∀ branch contents forged signed, ForgedOperation.ofContents branch contents = .ok forged →
      forged.sign key = .ok signed →
        signed.signature.curve = key.curve ∧
        key.publicKey.verify (0x03 :: forged.bytes) signed.signature = true :=
  ⟨fun _ _ => verify_of_sign, fun _ _ _ => verify_of_signMarked, fun _ _ => curve_of_signHex,
    fun _ _ => verify_of_curve_ne, fun _ _ _ _ _ => ForgedOperation.verify_of_sign⟩

/-- The sample key with an empty message, a message that begins with a watermark, and a branch
that begins with one. -/
theorem Key.signatures_accepted_seedKey :
    (∃ sig, Sample.seedKey.sign [] = .ok sig ∧
      sig.curve = .ed25519 ∧ Sample.seedKey.verify [] sig = true) ∧
    (∃ sig, Sample.seedKey.signWith .block [3, 7] = .ok sig ∧
      sig.curve = .ed25519 ∧ Sample.seedKey.publicKey.verify [1, 3, 7] sig = true) ∧
    (∃ sig, Sample.seedKey.signHex "03ff" = .ok sig ∧ sig.curve = .ed25519) ∧
    Sample.seedKey.verify [] ⟨.p256, .ofNatBE 64 1⟩ = false ∧
    ∃ forged signed,
      ForgedOperation.ofContents (Sample.constantBranch 3) [.endorsement 1] = .ok forged ∧
      forged.sign Sample.seedKey = .ok signed ∧ signed.signature.curve = .ed25519 ∧
      Sample.seedKey.publicKey.verify (0x03 :: forged.bytes) signed.signature = true := by
  obtain ⟨hsign, hsignWith, hsignHex, hother, hforged⟩ := signatures_accepted Sample.seedKey
  have hhex : Hex.decode (Text.trim "03ff") = .ok [3, 255] := by decide +kernel
  obtain ⟨sig, hsig⟩ : ∃ sig, Sample.seedKey.sign [3, 255] = .ok sig := ⟨_, rfl⟩
  have hsigHex : Sample.seedKey.signHex "03ff" = .ok sig := by
    rw [signHex, hhex, ← hsig]
    rfl
  exact ⟨⟨_, rfl, hsign _ _ rfl⟩, ⟨_, rfl, hsignWith .block [3, 7] _ rfl⟩,
    ⟨sig, hsigHex, hsignHex _ _ hsigHex⟩, hother _ _ (by decide), _, _,
    Sample.ofContents_constantBranch 3, rfl,
    hforged _ _ _ _ (Sample.ofContents_constantBranch 3) rfl⟩

/-- A key that verifies a signed operation looks at the bytes that were signed exactly if the hash
of the branch does not begin with the watermark's byte, and then it accepts the signature. The
public key accepts it over the marked bytes in any case. -/
theorem ForgedOperation.verify_signed {key : Key} {branch : String} {contents : List Content}
    {forged : ForgedOperation} {signed : SignedOperation}
    (hforge : ofContents branch contents = .ok forged) (hsign : forged.sign key = .ok signed) :
    ∃ hash : FixedBytes 32, branch = Base58Check.encode Version.blockHash.bytes hash.toBytes ∧
      (Watermark.ensure forged.bytes = Watermark.operation.mark forged.bytes ↔
        hash.toBytes.head? ≠ some 0x03) ∧
      (hash.toBytes.head? ≠ some 0x03 → key.verify forged.bytes signed.signature = true) ∧
      key.publicKey.verify (Watermark.operation.mark forged.bytes) signed.signature = true := by
  obtain ⟨hash, hbranch, bytes, -, hbytes⟩ := ofContents_eq_ok_iff.mp hforge
  obtain ⟨hcurve, hverify⟩ := verify_of_sign hsign
  have hhead : forged.bytes.head? = hash.toBytes.head? := by
    have hne : hash.toBytes ≠ [] := fun h => by simpa [h] using hash.length_toBytes
    rw [hbytes, List.head?_append_of_ne_nil _ hne]
  have hagree : Watermark.ensure forged.bytes = Watermark.operation.mark forged.bytes ↔
      hash.toBytes.head? ≠ some 0x03 := by
    rw [Watermark.ensure_eq_mark_iff, hhead]
    rfl
  refine ⟨hash, hbranch, hagree, fun hbyte => ?_, hverify⟩
  rw [Key.verify, hagree.mpr hbyte, hverify, decide_eq_true hcurve, Bool.and_self]

/-- An operation on the branch of zeros, signed by the sample key. -/
theorem ForgedOperation.verify_signed_zeroBranch :
    ∃ forged signed,
      ofContents (Sample.constantBranch 0) [.endorsement 1] = .ok forged ∧
      forged.sign Sample.seedKey = .ok signed ∧
      Watermark.ensure forged.bytes = Watermark.operation.mark forged.bytes ∧
      Sample.seedKey.verify forged.bytes signed.signature = true := by
  have hforge := Sample.ofContents_constantBranch 0
  obtain ⟨signed, hsign⟩ : ∃ signed,
      sign ⟨List.replicate 32 0 ++ [0, 0, 0, 0, 1]⟩ Sample.seedKey = .ok signed := ⟨_, rfl⟩
  obtain ⟨hash, hbranch, hagree, haccepted, -⟩ := verify_signed hforge hsign
  have hzeros : List.replicate 32 0 = hash.toBytes := Base58Check.encode_inj.mp hbranch
  have hhead : hash.toBytes.head? ≠ some 0x03 := by
    rw [← hzeros]
    decide
  exact ⟨_, _, hforge, hsign, hagree.mpr hhead, haccepted hhead⟩

/-- On the branch whose hash repeats the watermark's byte, the sample key refuses the signature of
the operation that it signed. -/
theorem ForgedOperation.verify_refuses_markedBranch :
    ∃ forged signed,
      ofContents (Sample.constantBranch 3) [.endorsement 1] = .ok forged ∧
      forged.sign Sample.seedKey = .ok signed ∧
      Watermark.ensure forged.bytes ≠ Watermark.operation.mark forged.bytes ∧
      Sample.seedKey.verify forged.bytes signed.signature = false := by
  have hforge := Sample.ofContents_constantBranch 3
  exact ⟨_, _, hforge, rfl, by decide, by decide +kernel⟩

end TezosWallet
