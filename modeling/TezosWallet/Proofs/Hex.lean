import TezosWallet.Proofs.Bytes
import TezosWallet.Proofs.Outcome
import TezosWallet.Proofs.Text.Blank
import TezosWallet.Hex

/-!
# Hexadecimal texts of byte strings

A byte string has many hexadecimal texts, as letters stand in either case, and each of them is
read as the byte string.

## Main definitions

* `Hex.Writes` — a text writes a byte string, with letters in any case.

## Main results

* `Hex.decode_of_writes`, `Hex.writes_of_decode` — such a text, and no other, is read as the byte
  string.
* `Hex.writes_encode` — the hexadecimal form is one.
* `Hex.isBlank_of_writes`, `Hex.not_mem_x_of_writes` — such a text has no blanks and no `x`.
-/

namespace TezosWallet.Hex

/-- The text writes the bytes, two digits for each, with letters in any case. -/
def Writes (text : String) (bytes : Bytes) : Prop := text.map Char.toLower = encode bytes

instance (text : String) (bytes : Bytes) : Decidable (Writes text bytes) :=
  inferInstanceAs (Decidable (_ = _))

theorem writes_iff {text : String} {bytes : Bytes} :
    Writes text bytes ↔ text.toList.map Char.toLower = bytes.flatMap encodeByte := by
  rw [Writes, ← String.toList_inj, String.toList_map, encode, String.toList_ofList]

theorem toNat_digitChar : ∀ n < 16, (digitChar n).toNat = if n < 10 then 48 + n else 87 + n := by
  decide

theorem toNat_toLower (c : Char) :
    c.toLower.toNat = if 65 ≤ c.toNat ∧ c.toNat ≤ 90 then c.toNat + 32 else c.toNat := by
  have hupper : c.val ≥ 'A'.val ∧ c.val ≤ 'Z'.val ↔ 65 ≤ c.toNat ∧ c.toNat ≤ 90 := Iff.rfl
  unfold Char.toLower
  by_cases h : 65 ≤ c.toNat ∧ c.toNat ≤ 90
  · rw [dif_pos (hupper.mpr h), if_pos h]
    change (c.val + 32).toNat = c.toNat + 32
    have hval : c.val.toNat = c.toNat := rfl
    have hshift : (32 : UInt32).toNat = 32 := rfl
    rw [UInt32.toNat_add]
    omega
  · rw [dif_neg (hupper.not.mpr h), if_neg h]

/-- A character that is a digit in lower case is a digit. -/
theorem digitValue?_of_toLower {c : Char} {n : Nat} (hn : n < 16) (hc : c.toLower = digitChar n) :
    c.toNat < 128 ∧ digitValue? (UInt8.ofNat c.toNat) = some n := by
  have hnat := congrArg Char.toNat hc
  rw [toNat_toLower, toNat_digitChar n hn] at hnat
  have hlt : c.toNat < 128 := by
    split at hnat <;> split at hnat <;> omega
  have hbyte : (UInt8.ofNat c.toNat).toNat = c.toNat := Bytes.toNat_byte (by omega)
  refine ⟨hlt, ?_⟩
  simp only [digitValue?, hbyte]
  split_ifs at hnat ⊢ <;> first | omega | (congr 1; omega)

/-- Characters that write bytes in lower case are ASCII, and their pairs are read as the bytes. -/
theorem decodePairs_of_map_toLower {cs : List Char} {bytes : Bytes}
    (h : cs.map Char.toLower = bytes.flatMap encodeByte) (index : Nat) :
    (∀ c ∈ cs, c.toNat < 128) ∧
      decodePairs index (cs.map fun c => UInt8.ofNat c.toNat) = .ok bytes := by
  induction bytes generalizing cs index with
  | nil =>
    obtain rfl := List.map_eq_nil_iff.mp h
    exact ⟨by simp, rfl⟩
  | cons b bytes ih =>
    obtain ⟨high, low, cs, rfl⟩ : ∃ high low rest, cs = high :: low :: rest := by
      match cs with
      | [] | [_] => simp [encodeByte] at h
      | high :: low :: rest => exact ⟨high, low, rest, rfl⟩
    obtain ⟨hhigh, hlow, hrest⟩ : high.toLower = digitChar (b.toNat / 16) ∧
        low.toLower = digitChar (b.toNat % 16) ∧
          cs.map Char.toLower = bytes.flatMap encodeByte := by
      simpa [encodeByte] using h
    have hb := b.toNat_lt
    obtain ⟨hhighlt, hhigh⟩ := digitValue?_of_toLower (by omega) hhigh
    obtain ⟨hlowlt, hlow⟩ := digitValue?_of_toLower (by omega) hlow
    obtain ⟨hlt, hread⟩ := ih hrest (index + 2)
    refine ⟨by simp [hhighlt, hlowlt]; exact hlt, ?_⟩
    have hbyte : UInt8.ofNat (16 * (b.toNat / 16) + b.toNat % 16) = b := by
      rw [Nat.div_add_mod, UInt8.ofNat_toNat]
    simp only [List.map_cons, decodePairs, digit, hhigh, hlow, hread, Outcome.ok_bind, hbyte,
      Outcome.pure_eq_ok]

/-- Every hexadecimal text of a byte string is read as the byte string. -/
theorem decode_of_writes {text : String} {bytes : Bytes} (h : Writes text bytes) :
    decode text = .ok bytes := by
  have hlist := writes_iff.mp h
  obtain ⟨hascii, hread⟩ := decodePairs_of_map_toLower hlist 0
  have hutf8 := Bytes.utf8_ofList hascii
  rw [String.ofList_toList] at hutf8
  have hlength : text.toList.length = 2 * bytes.length := by
    rw [← List.length_map (f := Char.toLower), hlist, List.length_flatMap]
    simp [encodeByte, mul_comm]
  rw [decode, hutf8]
  simp only [List.length_map, hlength, Nat.mul_mod_right, if_true, hread]

theorem digitValue?_ascii : ∀ n < 128, ∀ v ∈ digitValue? (UInt8.ofNat n),
    v < 16 ∧ (Char.ofNat n).toLower = digitChar v := by
  decide

/-- A byte that is a digit is ASCII, and its character in lower case is the digit's own. -/
theorem toLower_of_digit {b : UInt8} {index v : Nat} (h : digit b index = .ok v) :
    v < 16 ∧ b.toNat < 128 ∧ (Char.ofNat b.toNat).toLower = digitChar v := by
  rw [digit] at h
  split at h
  · next n hdigit =>
    cases h
    have hlt : b.toNat < 128 := by
      simp only [digitValue?] at hdigit
      split_ifs at hdigit <;> omega
    have hspec := digitValue?_ascii b.toNat hlt v (by rw [UInt8.ofNat_toNat]; exact hdigit)
    exact ⟨hspec.1, hlt, hspec.2⟩
  · cases h

/-- Pairs of digits that are read are ASCII, and write the bytes read in lower case. -/
theorem map_toLower_of_decodePairs {text bytes : Bytes} {index : Nat}
    (heven : text.length % 2 = 0) (h : decodePairs index text = .ok bytes) :
    (∀ b ∈ text, b.toNat < 128) ∧
      (text.map fun b => (Char.ofNat b.toNat).toLower) = bytes.flatMap encodeByte := by
  induction index, text using decodePairs.induct generalizing bytes with
  | case1 index high low rest ih =>
    rw [decodePairs] at h
    obtain ⟨hi, hhigh, h⟩ := Outcome.bind_eq_ok_iff.mp h
    obtain ⟨lo, hlow, h⟩ := Outcome.bind_eq_ok_iff.mp h
    obtain ⟨tail, htail, h⟩ := Outcome.bind_eq_ok_iff.mp h
    cases h
    obtain ⟨hhi, hhighlt, hhigh⟩ := toLower_of_digit hhigh
    obtain ⟨hlo, hlowlt, hlow⟩ := toLower_of_digit hlow
    obtain ⟨hascii, hrest⟩ := ih (by simp at heven; omega) htail
    have hbyte : (UInt8.ofNat (16 * hi + lo)).toNat = 16 * hi + lo := Bytes.toNat_byte (by omega)
    refine ⟨by simp [hhighlt, hlowlt]; exact hascii, ?_⟩
    rw [List.map_cons, List.map_cons, hhigh, hlow, hrest, List.flatMap_cons, encodeByte, hbyte,
      show (16 * hi + lo) / 16 = hi by omega, show (16 * hi + lo) % 16 = lo by omega]
    rfl
  | case2 text index hshort =>
    obtain rfl : text = [] := by
      match text with
      | [] => rfl
      | [_] => simp at heven
      | high :: low :: rest => exact (hshort high low rest rfl).elim
    cases h
    exact ⟨by simp, rfl⟩

/-- A text that is read as a byte string writes it. -/
theorem writes_of_decode {text : String} {bytes : Bytes} (h : decode text = .ok bytes) :
    Writes text bytes := by
  rw [decode] at h
  split at h
  · next heven =>
    obtain ⟨hascii, hlower⟩ := map_toLower_of_decodePairs heven h
    rw [writes_iff, Bytes.toList_of_ascii hascii, List.map_map, ← hlower]
    rfl
  · cases h

theorem toLower_digitChar : ∀ n < 16, (digitChar n).toLower = digitChar n := by
  decide

theorem encode_append (bytes bytes' : Bytes) :
    encode (bytes ++ bytes') = encode bytes ++ encode bytes' := by
  rw [encode, List.flatMap_append, String.ofList_append, encode, encode]

/-- The hexadecimal form is a hexadecimal text of the bytes. -/
theorem writes_encode (bytes : Bytes) : Writes (encode bytes) bytes := by
  have hbyte (b : UInt8) : (encodeByte b).map Char.toLower = encodeByte b := by
    have hb := b.toNat_lt
    rw [encodeByte, List.map_cons, List.map_cons, toLower_digitChar _ (by omega),
      toLower_digitChar _ (by omega), List.map_nil]
  rw [writes_iff, encode, String.toList_ofList, List.map_flatMap]
  simp only [hbyte]

/-- The characters of a hexadecimal text are digits, letters among them in either case. -/
theorem exists_digit_of_writes {text : String} {bytes : Bytes} (h : Writes text bytes) {c : Char}
    (hc : c ∈ text.toList) : ∃ n < 16, c.toLower = digitChar n := by
  obtain ⟨b, -, hdigit⟩ : ∃ b ∈ bytes, c.toLower ∈ encodeByte b := by
    rw [← List.mem_flatMap, ← writes_iff.mp h]
    exact List.mem_map_of_mem hc
  have hb := b.toNat_lt
  simp only [encodeByte, List.mem_cons, List.not_mem_nil, or_false] at hdigit
  obtain hhigh | hlow := hdigit
  · exact ⟨_, by omega, hhigh⟩
  · exact ⟨_, by omega, hlow⟩

/-- A hexadecimal text has no blanks, as its characters are digits and letters. -/
theorem isBlank_of_writes {text : String} {bytes : Bytes} (h : Writes text bytes) {c : Char}
    (hc : c ∈ text.toList) : Text.isBlank c = false := by
  obtain ⟨n, hn, hchar⟩ := exists_digit_of_writes h hc
  have hnat := congrArg Char.toNat hchar
  rw [toNat_toLower, toNat_digitChar n hn] at hnat
  refine Text.isBlank_of_graphic ?_ (digitValue?_of_toLower hn hchar).1
  split at hnat <;> split at hnat <;> omega

/-- The letter of the mark is no digit. -/
theorem not_mem_x_of_writes {text : String} {bytes : Bytes} (h : Writes text bytes) :
    'x' ∉ text.toList := by
  intro hx
  obtain ⟨n, hn, hchar⟩ := exists_digit_of_writes h hx
  have hnone : ∀ n < 16, 'x'.toLower ≠ digitChar n := by decide
  exact hnone n hn hchar

end TezosWallet.Hex
