import TezosWallet.Proofs.Identifier
import TezosWallet.Proofs.Key.EncryptedText
import TezosWallet.Proofs.Key.Generate

/-!
# No text is two identifiers

The readers of identifiers find their way differently: by a tag, by a curve that is asked for, by
the length of the text, with the blanks around it or without. In the end each of them compares
version bytes. As the version bytes of one kind never begin those of another, a text is written
under one version at most, and its version settles what it is read as and on which curve.

## Main definitions

* `Identifier.Kind` — what a text can be read as; `Version.kind` is the kind of a version.
* `Identifier.ReadAs` — a text is accepted by the reader of a kind, on a curve.
* `Identifier.Under` — a text is written under a version.

## Main results

* `Identifier.Under.unique` — a text is written under one version at most.
* `Identifier.ReadAs.exists_under` — what is read is written under a version of the kind.
* `Identifier.readAs_iff_of_readAs` — a text that is read as something is read as nothing else.
-/

namespace TezosWallet

namespace Identifier

/-- What a text can be read as. -/
inductive Kind
  /-- The name of an account. -/
  | address
  /-- A public key. -/
  | publicKey
  /-- A signature, in a form that tells its curve or in the generic one. -/
  | signature
  /-- A secret in the clear. -/
  | secret
  /-- A secret under a password. -/
  | encryptedSecret
  /-- A hash of thirty-two bytes of the given version. -/
  | hash (version : Version)
  deriving DecidableEq, Repr

end Identifier

/-- The kind of the identifiers under a version. -/
def Version.kind : Version → Identifier.Kind
  | tz1 | tz2 | tz3 | kt1 => .address
  | edpk | sppk | p2pk => .publicKey
  | edsig | spsig | p2sig | genericSig => .signature
  | edskSeed | edsk | spsk | p2sk => .secret
  | edesk | spesk | p2esk => .encryptedSecret
  | version => .hash version

/-- The versions of the hashes that a branch and the fields of contents are read as. -/
def Version.hashes : List Version :=
  [blockHash, protocolHash, operationListListHash, contextHash, nonceHash]

theorem Version.kind_of_mem_hashes :
    ∀ v ∈ Version.hashes, v.kind = .hash v ∧ v.curve? = none := by
  decide

/-- The curve of the key that controls an account. A contract has none. -/
def Address.curve? : Address → Option Curve
  | .implicit curve _ => some curve
  | .originated _ => none

namespace Identifier

/-- A text is accepted by the reader of a kind, and what is read belongs to a curve or to none. -/
inductive ReadAs (text : String) : Kind → Option Curve → Prop
  /-- The text is read as an address. -/
  | address {address : Address} (h : Address.ofText text = .ok address) :
      ReadAs text .address address.curve?
  /-- The text is read as a public key. -/
  | publicKey {key : PublicKey} (h : PublicKey.ofText text = .ok key) :
      ReadAs text .publicKey (some key.curve)
  /-- Signature bytes are read from the text; the curve is the one that its tag tells, which is
  none if the form is the generic one. -/
  | signature {bytes : FixedBytes 64} (h : Signature.bytesOfText text = .ok bytes) :
      ReadAs text .signature (Curve.ofText? text)
  /-- The text is read as a secret without asking for a curve. -/
  | secret {key : Key} (h : Key.ofSecretText text none = .ok key) :
      ReadAs text .secret (some key.curve)
  /-- The text is read as a secret on the curve that is asked for. -/
  | secretOn {curve : Curve} {key : Key} (h : Key.ofSecretText text (some curve) = .ok key) :
      ReadAs text .secret (some curve)
  /-- The text opens under some password. -/
  | encryptedSecret {password : String} {key : Key}
      (h : Key.ofEncryptedText text password = .ok key) :
      ReadAs text .encryptedSecret (some key.curve)
  /-- The text is read as a hash of a version. -/
  | hash {version : Version} {bytes : FixedBytes 32} (hversion : version ∈ Version.hashes)
      (h : Base58Check.decodeFixed 32 text version.bytes = .ok bytes) :
      ReadAs text (.hash version) none

/-- Between its blanks, the text is an identifier under a version. -/
def Under (text : String) (v : Version) : Prop :=
  ∃ payload, Text.trim text = Base58Check.encode v.bytes payload

variable {text : String} {kind kind' : Kind} {curve curve' : Option Curve} {v w : Version}

/-- A text is written under one version at most. -/
theorem Under.unique (hv : Under text v) (hw : Under text w) : v = w := by
  obtain ⟨x, hx⟩ := hv
  obtain ⟨y, hy⟩ := hw
  exact Version.eq_of_encode_eq (hx.symm.trans hy)

theorem under_encode (v : Version) (payload : Bytes) :
    Under (Base58Check.encode v.bytes payload) v := by
  have h := Key.trim_encode Text.allBlank_empty Text.allBlank_empty v.bytes payload
  rw [String.empty_append, String.append_empty] at h
  exact ⟨payload, h⟩

/-! ### The versions of each kind -/

theorem under_of_address {address : Address} (h : Address.ofText text = .ok address) :
    ∃ v, Under text v ∧ v.kind = .address ∧ v.curve? = address.curve? := by
  obtain rfl := Address.ofText_eq_ok_iff.mp h
  cases address with
  | implicit curve hash =>
    refine ⟨curve.addressVersion, under_encode _ _, ?_, ?_⟩
    · cases curve <;> rfl
    · exact Version.curve?_eq_some curve (by simp [Curve.versions])
  | originated hash => exact ⟨.kt1, under_encode _ _, rfl, rfl⟩

theorem under_of_publicKey {key : PublicKey} (h : PublicKey.ofText text = .ok key) :
    ∃ v, Under text v ∧ v.kind = .publicKey ∧ v.curve? = some key.curve := by
  obtain rfl := PublicKey.ofText_eq_ok_iff.mp h
  refine ⟨key.curve.publicKeyVersion, under_encode _ _, ?_, ?_⟩
  · cases key.curve <;> rfl
  · exact Version.curve?_eq_some key.curve (by simp [Curve.versions])

/-- The tag of a signature tells the curve of its version. -/
theorem under_of_signature {bytes : FixedBytes 64} (h : Signature.bytesOfText text = .ok bytes) :
    ∃ v, Under text v ∧ v.kind = .signature ∧ v.curve? = Curve.ofText? text := by
  obtain ⟨curve, rfl⟩ | rfl := Signature.bytesOfText_eq_ok_iff.mp h
  · have hcurve := Version.curve_encode (Signature.size_version ⟨curve, bytes⟩)
    refine ⟨curve.signatureVersion, under_encode _ _, ?_, hcurve.symm⟩
    cases curve <;> rfl
  · have hcurve := Version.curve_encode (v := .genericSig) bytes.length_toBytes
    exact ⟨.genericSig, under_encode _ _, rfl, hcurve.symm⟩

/-- A secret is read under its own version or under that of a bare seed, however the curve became
known. -/
theorem under_of_secret {named : Option Curve} {key : Key}
    (h : Key.ofSecretText text named = .ok key) :
    ∃ v, Under text v ∧ v.kind = .secret ∧ v.curve? = some key.curve := by
  obtain ⟨-, payload, htext, -⟩ := Key.ofSecretText_eq_ok_iff_payload.mp h
  refine ⟨Key.versionOfText key.curve (Text.trim text), ⟨payload, htext⟩, ?_⟩
  rw [Key.versionOfText]
  split
  · next hseed => exact ⟨rfl, hseed.1 ▸ rfl⟩
  · cases key.curve <;> exact ⟨rfl, rfl⟩

theorem under_of_encryptedSecret {password : String} {key : Key}
    (h : Key.ofEncryptedText text password = .ok key) :
    ∃ v, Under text v ∧ v.kind = .encryptedSecret ∧ v.curve? = some key.curve := by
  obtain ⟨salt, raw, htext, -⟩ := Key.exists_encryption_of_ofEncryptedText h
  refine ⟨key.curve.encryptedSecretVersion, ⟨_, htext⟩, ?_, ?_⟩
  · cases key.curve <;> rfl
  · exact Version.curve?_eq_some key.curve (by simp [Curve.versions])

theorem under_of_hash {bytes : FixedBytes 32} (hv : v ∈ Version.hashes)
    (h : Base58Check.decodeFixed 32 text v.bytes = .ok bytes) :
    Under text v ∧ v.kind = .hash v ∧ v.curve? = none := by
  obtain rfl := Base58Check.decodeFixed_eq_ok_iff.mp h
  exact ⟨under_encode _ _, Version.kind_of_mem_hashes v hv⟩

/-- What is read as some kind is written under a version of the kind and of the curve. -/
theorem ReadAs.exists_under (h : ReadAs text kind curve) :
    ∃ v, Under text v ∧ v.kind = kind ∧ v.curve? = curve := by
  cases h with
  | address h => exact under_of_address h
  | publicKey h => exact under_of_publicKey h
  | signature h => exact under_of_signature h
  | secret h => exact under_of_secret h
  | secretOn h =>
    obtain ⟨hasked, -⟩ := Key.ofSecretText_eq_ok_iff_payload.mp h
    rw [Option.some_or] at hasked
    exact hasked ▸ under_of_secret h
  | encryptedSecret h => exact under_of_encryptedSecret h
  | hash hv h => exact ⟨_, under_of_hash hv h⟩

/-! ### One reading -/

/-- A text that some reader accepts is accepted by the readers of no other kind, and on no other
curve, whatever curves are asked for and passwords tried. In the place of another identifier it is
an error. -/
theorem readAs_iff_of_readAs (h : ReadAs text kind curve) :
    ReadAs text kind' curve' ↔ kind' = kind ∧ curve' = curve := by
  constructor
  · intro h'
    obtain ⟨v, hv, rfl, rfl⟩ := h.exists_under
    obtain ⟨w, hw, rfl, rfl⟩ := h'.exists_under
    obtain rfl := hv.unique hw
    exact ⟨rfl, rfl⟩
  · rintro ⟨rfl, rfl⟩
    exact h

/-- The sample seed, whose text begins as that of a seed with its public key does and is as long as
a public key of its curve. -/
theorem readAs_iff_of_readAs_sampleSeed :
    ∃ key : Key, key.secret = Sample.secret .ed25519 ∧
      ReadAs key.seedText .secret (some .ed25519) ∧
      ∀ kind curve, ReadAs key.seedText kind curve ↔ kind = .secret ∧ curve = some .ed25519 := by
  obtain ⟨key, hkey⟩ := Key.exists_ofSecret_ed25519 (Sample.secret .ed25519)
  obtain ⟨hcurve, hsecret⟩ := Key.ofSecret_eq_ok_iff.mp hkey
  have hread := key.ofSecretText_seedText hcurve (by simp : none ∈ [none, some key.curve])
    Text.allBlank_empty Text.allBlank_empty
  rw [String.empty_append, String.append_empty] at hread
  have h : ReadAs key.seedText .secret (some .ed25519) := hcurve ▸ .secret hread
  exact ⟨key, hsecret, h, fun _ _ => readAs_iff_of_readAs h⟩

end Identifier

end TezosWallet
