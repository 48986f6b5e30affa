import TezosWallet.Proofs.Base58.Check
import TezosWallet.Base58.Version
import TezosWallet.Text.Basic

/-!
# Readable tags

The version bytes of an identifier confine its number to an interval, whatever the payload and the
checksum. Each version is chosen so that all numbers of its interval have one digit count and the
same leading base-58 digits, and these are the tag that one reads.

## Main definitions

* `Version.tagDigits`, `Version.tailLength` — the leading digits of a version, and how many follow.
* `Version.Leads` — the interval of a version lies within one value of its leading digits.

## Main results

* `Base58.encode_eq_append` — leading digits of a byte string, from a quotient of its number.
* `Base58Check.encode_eq_append` — leading digits of an identifier, from its version and size.
* `Version.encode_eq_append` — a well-formed identifier is its tag and a tail of fixed length.
* `Version.hasTag_encode`, `Version.length_encode`, `Version.utf8ByteSize_encode`.
* `Version.eq_of_encode_eq` — no text is an identifier under two versions.
-/

namespace TezosWallet

namespace Base58

/-- Where the number of a byte string, divided by a power of 58, has certain digits, the text
begins with them, and the power says how many characters follow. -/
theorem encode_eq_append {bytes : Bytes} {ds : List Nat} {k : Nat}
    (hbytes : bytes.takeWhile (· == 0) = []) (hne : ds ≠ []) (hlt : ∀ d ∈ ds, d < 58)
    (hhead : ds.head hne ≠ 0)
    (hquot : Bytes.toNatBE bytes / 58 ^ k = Radix.ofDigits 58 ds.reverse) :
    ∃ tail : List Char, tail.length = k ∧ (encode bytes).toList = ds.map digitChar ++ tail := by
  set n := Bytes.toNatBE bytes with hn
  have hdigits : Radix.digits 58 (n / 58 ^ k) = ds.reverse := by
    rw [hquot]
    refine Radix.digits_ofDigits (by decide) (by simpa using hlt) fun h => ?_
    rwa [List.getLast_reverse]
  have hquotne : n / 58 ^ k ≠ 0 := by
    intro h
    rw [h, Radix.digits_zero] at hdigits
    exact hne (List.reverse_eq_nil_iff.mp hdigits.symm)
  refine ⟨((Radix.digits 58 n).take k).reverse.map digitChar, ?_, ?_⟩
  · rw [List.length_map, List.length_reverse, List.length_take,
      Radix.length_digits_of_div_ne_zero (by decide) hquotne]
    omega
  · have htext : (Radix.digits 58 n).reverse = ds ++ ((Radix.digits 58 n).take k).reverse := by
      rw [Radix.reverse_digits_eq_append (by decide) k n, hdigits, List.reverse_reverse]
    rw [encode, hbytes, ← hn, ← List.map_reverse, htext, List.map_append]
    simp

/-- The characters of a text are one byte each. -/
theorem utf8ByteSize_encode (bytes : Bytes) :
    (encode bytes).utf8ByteSize = (encode bytes).length := by
  rw [← Bytes.length_utf8, utf8_encode, encode_eq, String.length_ofList, List.length_map,
    List.length_map]

end Base58

namespace Base58Check

variable {version payload : Bytes} {ds : List Nat} {k : Nat}

/-- The version bytes fix a quotient of an identifier's number if all numbers that begin with
them, and have as many bytes after them, have this quotient. -/
theorem toNatBE_raw_div {q : Nat}
    (hlow : q * 58 ^ k ≤ Bytes.toNatBE version * 256 ^ (payload.length + checksumSize))
    (hhigh : (Bytes.toNatBE version + 1) * 256 ^ (payload.length + checksumSize) ≤
      (q + 1) * 58 ^ k) :
    Bytes.toNatBE (raw version payload) / 58 ^ k = q := by
  set body := payload ++ checksum (version ++ payload) with hbody
  have hlength : body.length = payload.length + checksumSize := by
    rw [hbody, List.length_append, length_checksum]
  have hlt := Bytes.toNatBE_lt body
  have hnumber : Bytes.toNatBE (raw version payload) =
      Bytes.toNatBE version * 256 ^ body.length + Bytes.toNatBE body := by
    rw [raw, List.append_assoc, Bytes.toNatBE_append]
  rw [← hlength] at hlow hhigh
  rw [hnumber]
  refine Nat.div_eq_of_lt_le (hlow.trans (Nat.le_add_right _ _)) ?_
  calc Bytes.toNatBE version * 256 ^ body.length + Bytes.toNatBE body
      < Bytes.toNatBE version * 256 ^ body.length + 256 ^ body.length :=
        Nat.add_lt_add_left hlt _
    _ = (Bytes.toNatBE version + 1) * 256 ^ body.length := (Nat.succ_mul _ _).symm
    _ ≤ _ := hhigh

theorem takeWhile_raw (hversion : version ≠ [] ∧ version.head? ≠ some 0) :
    (raw version payload).takeWhile (· == 0) = [] := by
  obtain ⟨hne, hhead⟩ := hversion
  rw [raw, List.append_assoc]
  cases version with
  | nil => exact absurd rfl hne
  | cons b rest =>
    rw [List.head?_cons, ne_eq, Option.some.injEq] at hhead
    rw [List.cons_append, List.takeWhile_cons_of_neg (by simpa using hhead)]

/-- Where the version bytes confine an identifier's number to one value of its leading digits, the
identifier is these digits and a tail of fixed length. -/
theorem encode_eq_append (hversion : version ≠ [] ∧ version.head? ≠ some 0) (hne : ds ≠ [])
    (hlt : ∀ d ∈ ds, d < 58) (hhead : ds.head? ≠ some 0)
    (hlow : Radix.ofDigits 58 ds.reverse * 58 ^ k ≤
      Bytes.toNatBE version * 256 ^ (payload.length + checksumSize))
    (hhigh : (Bytes.toNatBE version + 1) * 256 ^ (payload.length + checksumSize) ≤
      (Radix.ofDigits 58 ds.reverse + 1) * 58 ^ k) :
    ∃ tail : List Char, tail.length = k ∧
      (encode version payload).toList = ds.map Base58.digitChar ++ tail := by
  rw [encode_eq]
  refine Base58.encode_eq_append (takeWhile_raw hversion) hne hlt ?_ (toNatBE_raw_div hlow hhigh)
  rwa [List.head?_eq_some_head hne, ne_eq, Option.some.injEq] at hhead

/-- The same for a single leading digit. -/
theorem encode_eq_cons {d : Nat} (hversion : version ≠ [] ∧ version.head? ≠ some 0) (hd : d ≠ 0)
    (hlt : d < 58)
    (hlow : d * 58 ^ k ≤ Bytes.toNatBE version * 256 ^ (payload.length + checksumSize))
    (hhigh : (Bytes.toNatBE version + 1) * 256 ^ (payload.length + checksumSize) ≤
      (d + 1) * 58 ^ k) :
    (∃ tail, (encode version payload).toList = Base58.digitChar d :: tail) ∧
      (encode version payload).utf8ByteSize = k + 1 := by
  have hdigits : Radix.ofDigits 58 [d].reverse = d := by simp [Radix.ofDigits]
  obtain ⟨tail, htail, htext⟩ : ∃ tail : List Char, tail.length = k ∧
      (encode version payload).toList = [d].map Base58.digitChar ++ tail :=
    encode_eq_append hversion (List.cons_ne_nil d []) (by simpa using hlt) (by simpa using hd)
      (by rwa [hdigits]) (by rwa [hdigits])
  refine ⟨⟨tail, htext⟩, ?_⟩
  rw [encode_eq, Base58.utf8ByteSize_encode, ← encode_eq, ← String.length_toList, htext,
    List.length_append, htail, List.map_singleton, List.length_singleton, Nat.add_comm]

end Base58Check

namespace Version

/-- The digits that a version's tag is written with. -/
def tagDigits (v : Version) : List Nat := v.tag.toList.map fun c => Base58.alphabet.idxOf c

/-- The number of characters after the tag. -/
def tailLength (v : Version) : Nat := v.textLength - v.tag.length

/-- The number of bytes after the version bytes. -/
def bodySize (v : Version) : Nat := v.payloadSize + Base58Check.checksumSize

/-- All numbers that begin with the version bytes, and have as many bytes after them as a
well-formed identifier, begin with the tag's digits and have the right number of digits after
them. -/
def Leads (v : Version) : Prop :=
  Radix.ofDigits 58 v.tagDigits.reverse * 58 ^ v.tailLength ≤
      Bytes.toNatBE v.bytes * 256 ^ v.bodySize ∧
    (Bytes.toNatBE v.bytes + 1) * 256 ^ v.bodySize ≤
      (Radix.ofDigits 58 v.tagDigits.reverse + 1) * 58 ^ v.tailLength

instance (v : Version) : Decidable v.Leads := inferInstanceAs (Decidable (_ ∧ _))

/-- All kinds of identifier. -/
def all : List Version := [tz1, tz2, tz3, kt1, edpk, sppk, p2pk, edskSeed, edsk, spsk, p2sk, edesk,
  spesk, p2esk, edsig, spsig, p2sig, genericSig, blockHash, operationHash, operationListListHash,
  protocolHash, contextHash, nonceHash, scriptExpr]

theorem mem_all (v : Version) : v ∈ all := by
  cases v <;> decide

theorem leads (v : Version) : v.Leads := by
  have hall : ∀ v ∈ all, v.Leads := by decide +kernel
  exact hall v v.mem_all

/-- A tag is written in digits, does not begin with the digit zero and is no longer than the
text. -/
theorem tagDigits_spec (v : Version) :
    v.tagDigits ≠ [] ∧ (∀ d ∈ v.tagDigits, d < 58) ∧ v.tagDigits.head? ≠ some 0 ∧
      v.tagDigits.map Base58.digitChar = v.tag.toList ∧ v.tag.length ≤ v.textLength := by
  have hall : ∀ v ∈ all, v.tagDigits ≠ [] ∧ (∀ d ∈ v.tagDigits, d < 58) ∧
      v.tagDigits.head? ≠ some 0 ∧ v.tagDigits.map Base58.digitChar = v.tag.toList ∧
      v.tag.length ≤ v.textLength := by decide +kernel
  exact hall v v.mem_all

theorem bytes_head? (v : Version) : v.bytes ≠ [] ∧ v.bytes.head? ≠ some 0 := by
  cases v <;> decide

variable {v : Version} {payload : Bytes}

/-- A well-formed identifier is its tag and a tail of fixed length. -/
theorem encode_eq_append (hsize : payload.length = v.payloadSize) :
    ∃ tail : List Char, tail.length = v.tailLength ∧
      (Base58Check.encode v.bytes payload).toList = v.tag.toList ++ tail := by
  obtain ⟨hne, hlt, hhead, htag, -⟩ := v.tagDigits_spec
  obtain ⟨hlow, hhigh⟩ := v.leads
  rw [bodySize, ← hsize] at hlow hhigh
  rw [← htag]
  exact Base58Check.encode_eq_append v.bytes_head? hne hlt hhead hlow hhigh

/-- A well-formed identifier begins with its tag. -/
theorem hasTag_encode (hsize : payload.length = v.payloadSize) :
    Text.hasTag v.tag (Base58Check.encode v.bytes payload) = true := by
  obtain ⟨tail, -, htext⟩ := encode_eq_append hsize
  rw [Text.hasTag, htext, List.isPrefixOf_iff_prefix]
  exact List.prefix_append _ _

/-- A well-formed identifier has the number of characters of its kind. -/
theorem length_encode (hsize : payload.length = v.payloadSize) :
    (Base58Check.encode v.bytes payload).length = v.textLength := by
  obtain ⟨tail, htail, htext⟩ := encode_eq_append hsize
  have hle := v.tagDigits_spec.2.2.2.2
  rw [← String.length_toList, htext, List.length_append, String.length_toList, htail, tailLength]
  omega

theorem utf8ByteSize_encode (hsize : payload.length = v.payloadSize) :
    (Base58Check.encode v.bytes payload).utf8ByteSize = v.textLength := by
  rw [← length_encode hsize]
  exact Base58.utf8ByteSize_encode _

/-! ### One version for each text -/

/-- No version bytes begin those of another version. -/
theorem eq_of_prefix_bytes {v w : Version} (h : v.bytes <+: w.bytes) : v = w := by
  have hall : ∀ v ∈ all, ∀ w ∈ all, v.bytes <+: w.bytes → v = w := by decide
  exact hall v v.mem_all w w.mem_all h

/-- Identifiers with one text have one version. -/
theorem eq_of_encode_eq {v w : Version} {x y : Bytes}
    (h : Base58Check.encode v.bytes x = Base58Check.encode w.bytes y) : v = w := by
  have hraw : Base58Check.raw v.bytes x = Base58Check.raw w.bytes y := Base58.encode_inj.mp h
  have hv : v.bytes <+: Base58Check.raw w.bytes y := hraw ▸ Base58Check.prefix_raw _ _
  -- Both versions begin the same bytes, so one of them begins the other.
  obtain hvw | hwv := List.prefix_or_prefix_of_prefix hv (Base58Check.prefix_raw w.bytes y)
  · exact eq_of_prefix_bytes hvw
  · exact (eq_of_prefix_bytes hwv).symm

end Version

end TezosWallet
