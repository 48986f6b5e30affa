import TezosWallet.Proofs.Base58
import TezosWallet.Base58.Check

/-!
# Base58Check is a bijection

Behind given version bytes every payload has exactly one text: what decodes to the payload is what
the payload encodes to, letter by letter. Every other text is refused for one reason, the first
that applies of: a character outside the alphabet, too few bytes, another version, a wrong
checksum.

## Main definitions

* `Base58Check.Refused` — why a text is no identifier of a version.

## Main results

* `Base58Check.decode_eq_ok_iff`, `Base58Check.decodeFixed_eq_ok_iff` — the accepted texts.
* `Base58Check.decode_eq_error_iff`, `Base58Check.decodeFixed_eq_error_iff` — the others.
* `Base58Check.decode_outcome` — both at once, for every text.
-/

namespace TezosWallet.Base58Check

theorem length_checksum (bytes : Bytes) : (checksum bytes).length = checksumSize := by
  rw [checksum, List.length_take, FixedBytes.length_toBytes]
  rfl

/-- The bytes that a text of an identifier writes. -/
def raw (version payload : Bytes) : Bytes :=
  version ++ payload ++ checksum (version ++ payload)

theorem encode_eq (version payload : Bytes) :
    encode version payload = Base58.encode (raw version payload) := rfl

theorem prefix_raw (version payload : Bytes) : version <+: raw version payload := by
  rw [raw, List.append_assoc]
  exact List.prefix_append _ _

/-- Bytes pass all checks exactly if they are the ones of their payload. -/
theorem eq_raw_iff {version payload bytes : Bytes} :
    bytes = raw version payload ↔
      ¬ bytes.length < version.length + checksumSize ∧ bytes.take version.length = version ∧
        bytes.drop (bytes.length - checksumSize) =
          checksum (bytes.take (bytes.length - checksumSize)) ∧
        (bytes.take (bytes.length - checksumSize)).drop version.length = payload := by
  constructor
  · rintro rfl
    have hlen : (raw version payload).length - checksumSize = (version ++ payload).length := by
      rw [raw, List.length_append, length_checksum, Nat.add_sub_cancel]
    refine ⟨?_, ?_, ?_, ?_⟩
    · simp only [raw, List.length_append, length_checksum]
      omega
    · rw [raw, List.append_assoc, List.take_left]
    · rw [hlen, raw, List.drop_left, List.take_left]
    · rw [hlen, raw, List.take_left, List.drop_left]
  · rintro ⟨hlen, hversion, hchecksum, hpayload⟩
    have hbody : bytes.take (bytes.length - checksumSize) = version ++ payload := by
      rw [← List.take_append_drop version.length (bytes.take (bytes.length - checksumSize)),
        hpayload, List.take_take, Nat.min_eq_left (by omega), hversion]
    rw [raw, ← hbody, ← hchecksum, List.take_append_drop]

/-- A text decodes to a payload exactly if it is the text of it. -/
theorem decode_eq_ok_iff {text : String} {version payload : Bytes} :
    decode text version = .ok payload ↔ text = encode version payload := by
  rw [decode, Outcome.bind_eq_ok_iff, encode_eq]
  simp only [Outcome.mapError_eq_ok_iff, Base58.decode_eq_ok_iff]
  constructor
  · rintro ⟨bytes, rfl, h⟩
    congr 1
    rw [eq_raw_iff]
    split at h
    · cases h
    · next hlen =>
      split at h
      · cases h
      · next hversion =>
        split at h
        · cases h
        · next hchecksum =>
          exact ⟨hlen, not_not.mp hversion, not_not.mp hchecksum, Except.ok.inj h⟩
  · rintro rfl
    obtain ⟨hlen, hversion, hchecksum, hpayload⟩ := eq_raw_iff.mp (Eq.refl (raw version payload))
    refine ⟨_, rfl, ?_⟩
    simp [if_neg hlen, hversion, ← hchecksum, hpayload]

/-- A text decodes to a payload of fixed size exactly if it is the text of it. -/
theorem decodeFixed_eq_ok_iff {size : Nat} {text : String} {version : Bytes}
    {payload : FixedBytes size} :
    decodeFixed size text version = .ok payload ↔ text = encode version payload.toBytes := by
  rw [decodeFixed, Outcome.bind_eq_ok_iff]
  simp only [decode_eq_ok_iff]
  constructor
  · rintro ⟨bytes, rfl, h⟩
    split at h
    · next hfixed =>
      cases h
      rw [FixedBytes.ofBytes?_eq_some_iff.mp hfixed]
    · cases h
  · rintro rfl
    exact ⟨_, rfl, by rw [FixedBytes.ofBytes?_toBytes]; rfl⟩

/-- Identifiers behind the same version bytes have different payloads. -/
theorem encode_inj {version x y : Bytes} : encode version x = encode version y ↔ x = y := by
  refine ⟨fun h => ?_, congrArg _⟩
  have hx := decode_eq_ok_iff.mpr (Eq.refl (encode version x))
  rw [h, decode_eq_ok_iff.mpr rfl] at hx
  exact (Except.ok.inj hx).symm

/-! ### Refused texts -/

/-- The reason why a text is no identifier of a version. Each reason presumes that none of those
before it applies. -/
inductive Refused (text : String) (version : Bytes) : Error → Prop
  /-- A character, here the first such, is outside the alphabet. -/
  | notBase58 {before after : List Char} {c : Char} (htext : text.toList = before ++ c :: after)
      (hbefore : ∀ d ∈ before, d ∈ Base58.alphabet) (hc : c ∉ Base58.alphabet) :
      Refused text version (.notBase58 (Base58.faultOf c before.length))
  /-- The text writes fewer bytes than the version and the checksum have. -/
  | invalidLength {bytes : Bytes} (htext : text = Base58.encode bytes)
      (hshort : bytes.length < version.length + checksumSize) :
      Refused text version (.invalidLength (version.length + checksumSize) bytes.length)
  /-- The bytes begin otherwise. -/
  | wrongVersion {bytes : Bytes} (htext : text = Base58.encode bytes)
      (hlong : version.length + checksumSize ≤ bytes.length) (hversion : ¬ version <+: bytes) :
      Refused text version .wrongVersion
  /-- The bytes begin with the version, but no payload has that text. -/
  | wrongChecksum {bytes : Bytes} (htext : text = Base58.encode bytes)
      (hlong : version.length + checksumSize ≤ bytes.length) (hversion : version <+: bytes)
      (hpayload : ∀ payload, text ≠ encode version payload) : Refused text version .wrongChecksum

variable {text : String} {version : Bytes}

/-- A text is an identifier of the version or there is a reason why not. -/
theorem eq_encode_or_refused (text : String) (version : Bytes) :
    (∃ payload, text = encode version payload) ∨ ∃ fault, Refused text version fault := by
  by_cases hdigits : ∀ c ∈ text.toList, c ∈ Base58.alphabet
  · obtain ⟨bytes, hbytes⟩ := Base58.exists_eq_encode_iff.mpr hdigits
    by_cases hshort : bytes.length < version.length + checksumSize
    · exact .inr ⟨_, .invalidLength hbytes hshort⟩
    by_cases hversion : version <+: bytes
    · by_cases hpayload : ∃ payload, text = encode version payload
      · exact .inl hpayload
      · exact .inr ⟨_, .wrongChecksum hbytes (Nat.le_of_not_lt hshort) hversion
          (not_exists.mp hpayload)⟩
    · exact .inr ⟨_, .wrongVersion hbytes (Nat.le_of_not_lt hshort) hversion⟩
  · obtain ⟨before, c, after, htext, hbefore, hc⟩ := Base58.exists_first_nondigit hdigits
    exact .inr ⟨_, .notBase58 htext hbefore hc⟩

/-- A refused text fails to decode for the reason why it is refused. -/
theorem decode_of_refused {fault : Error} (h : Refused text version fault) :
    decode text version = .error fault := by
  cases h with
  | notBase58 htext hbefore hc =>
    have hraw := Base58.decode_eq_error_iff.mpr ⟨_, _, _, htext, hbefore, hc, rfl⟩
    rw [decode, hraw]
    rfl
  | invalidLength htext hshort =>
    rw [decode, Base58.decode_eq_ok_iff.mpr htext]
    simp [hshort]
  | wrongVersion htext hlong hversion =>
    have hbegin : List.take version.length _ ≠ version :=
      fun h => hversion (List.prefix_iff_eq_take.mpr h.symm)
    rw [decode, Base58.decode_eq_ok_iff.mpr htext]
    simp [Nat.not_lt.mpr hlong, hbegin]
  | @wrongChecksum bytes htext hlong hversion hpayload =>
    have hbegin := (List.prefix_iff_eq_take.mp hversion).symm
    have hchecksum : bytes.drop (bytes.length - checksumSize) ≠
        checksum (bytes.take (bytes.length - checksumSize)) := by
      intro h
      have hraw := eq_raw_iff.mpr ⟨Nat.not_lt.mpr hlong, hbegin, h, rfl⟩
      exact hpayload _ (by rw [encode_eq, ← hraw, htext])
    rw [decode, Base58.decode_eq_ok_iff.mpr htext]
    simp [Nat.not_lt.mpr hlong, hbegin, hchecksum]

/-- Decoding fails exactly for the reason why the text is refused. -/
theorem decode_eq_error_iff {fault : Error} :
    decode text version = .error fault ↔ Refused text version fault := by
  refine ⟨fun h => ?_, decode_of_refused⟩
  obtain ⟨payload, hpayload⟩ | ⟨reason, hreason⟩ := eq_encode_or_refused text version
  · rw [decode_eq_ok_iff.mpr hpayload] at h
    cases h
  · rw [decode_of_refused hreason, Except.error.injEq] at h
    exact h ▸ hreason

/-- Where the size of the payload is fixed, identifiers with another size are refused too. -/
theorem decodeFixed_eq_error_iff {size : Nat} {fault : Error} :
    decodeFixed size text version = .error fault ↔
      Refused text version fault ∨ ∃ payload, text = encode version payload ∧
        payload.length ≠ size ∧ fault = .invalidLength (version.length + size + checksumSize)
          (version.length + payload.length + checksumSize) := by
  rw [decodeFixed, Outcome.bind_eq_error_iff, decode_eq_error_iff]
  simp only [decode_eq_ok_iff]
  refine or_congr_right (exists_congr fun payload => and_congr_right fun _ => ?_)
  rw [← FixedBytes.ofBytes?_eq_none_iff]
  cases FixedBytes.ofBytes? size payload <;> simp [eq_comm]

/-- A text is refused for its characters exactly if one of them is outside the alphabet. -/
theorem exists_refused_notBase58_iff :
    (∃ cause, Refused text version (.notBase58 cause)) ↔
      ∃ c ∈ text.toList, c ∉ Base58.alphabet := by
  constructor
  · rintro ⟨_, @⟨before, after, c, htext, hbefore, hc⟩⟩
    exact ⟨c, by simp [htext], hc⟩
  · rintro ⟨c, hmem, hc⟩
    obtain ⟨before, c, after, htext, hbefore, hc⟩ :=
      Base58.exists_first_nondigit fun h => hc (h c hmem)
    exact ⟨_, .notBase58 htext hbefore hc⟩

/-- What becomes of every text, whatever the version bytes and the payload: it decodes to the
payload that it is the text of, or fails for the first reason that applies. -/
theorem decode_outcome (text : String) (version : Bytes) :
    (∀ payload, decode text version = .ok payload ↔ text = encode version payload) ∧
      (∀ size (payload : FixedBytes size),
        decodeFixed size text version = .ok payload ↔ text = encode version payload.toBytes) ∧
      (∀ fault, decode text version = .error fault ↔ Refused text version fault) ∧
      ((∃ cause, decode text version = .error (.notBase58 cause)) ↔
        ∃ c ∈ text.toList, c ∉ Base58.alphabet) ∧
      ∀ size fault, decodeFixed size text version = .error fault ↔
        Refused text version fault ∨ ∃ payload, text = encode version payload ∧
          payload.length ≠ size ∧ fault = .invalidLength (version.length + size + checksumSize)
            (version.length + payload.length + checksumSize) := by
  refine ⟨fun _ => decode_eq_ok_iff, fun _ _ => decodeFixed_eq_ok_iff,
    fun _ => decode_eq_error_iff, ?_, fun _ _ => decodeFixed_eq_error_iff⟩
  simp only [decode_eq_error_iff, exists_refused_notBase58_iff]

end TezosWallet.Base58Check
