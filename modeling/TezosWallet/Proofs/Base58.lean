import Mathlib.Data.List.GetD
import TezosWallet.Proofs.Bytes
import TezosWallet.Proofs.Outcome
import TezosWallet.Base58

/-!
# Base58 is a bijection

A byte string and its text are two digit lists of one number, in base 256 and in base 58, with as
many leading zeros. Every byte string therefore has exactly one text, and every text of the
alphabet is the text of exactly one byte string.

## Main definitions

* `Base58.toDigits` — the base-58 digits of a byte string in reading order.
* `Base58.faultOf` — the error of a character that is no digit.

## Main results

* `Base58.decode_eq_ok_iff` — a text decodes to a byte string exactly if it is its text.
* `Base58.exists_eq_encode_iff` — the texts of byte strings are the texts of the alphabet.
* `Base58.decode_eq_error_iff` — the error is that of the first character outside the alphabet.
-/

namespace TezosWallet.Base58

/-! ### Digits and characters -/

theorem digitChar_ascii : ∀ d < 58, (digitChar d).toNat < 128 := by decide

theorem digitChar_graphic : ∀ d < 58, 0x20 < (digitChar d).toNat := by decide

theorem idxOf?_digitChar :
    ∀ d < 58, alphabet.idxOf? (Char.ofNat (UInt8.ofNat (digitChar d).toNat).toNat) = some d := by
  decide

theorem digit_digitChar {d : Nat} (hd : d < 58) (index : Nat) :
    digit (UInt8.ofNat (digitChar d).toNat) index = .ok d := by
  have hascii : ¬ (UInt8.ofNat (digitChar d).toNat).toNat ≥ 128 := by
    have := digitChar_ascii d hd
    rw [UInt8.toNat_ofNat']
    omega
  rw [digit, if_neg hascii, idxOf?_digitChar d hd]

/-- A byte that writes a digit is the one of its character. -/
theorem eq_digitChar_of_digit {b : UInt8} {index d : Nat} (h : digit b index = .ok d) :
    d < 58 ∧ b = UInt8.ofNat (digitChar d).toNat := by
  rw [digit] at h
  split at h
  · cases h
  · next hascii =>
    cases hidx : alphabet.idxOf? (Char.ofNat b.toNat) with
    | none => simp [hidx] at h
    | some e =>
      simp only [hidx, Except.ok.injEq] at h
      subst h
      obtain ⟨hlt, hget, -⟩ := List.idxOf?_eq_some_iff.mp hidx
      have hvalid : (Char.ofNat b.toNat).toNat = b.toNat := Bytes.toNat_ofNat_ascii _ (by omega)
      refine ⟨hlt, ?_⟩
      rw [digitChar, List.getD_eq_getElem _ _ hlt, hget, hvalid, UInt8.ofNat_toNat]

/-- The digits written by bytes: each byte is the one of its digit's character. -/
theorem digitsFrom_eq_ok_iff {index : Nat} {bytes : Bytes} {ds : List Nat} :
    digitsFrom index bytes = .ok ds ↔
      (∀ d ∈ ds, d < 58) ∧ bytes = ds.map fun d => UInt8.ofNat (digitChar d).toNat := by
  constructor
  · induction bytes generalizing index ds with
    | nil =>
      rintro h
      cases h
      simp
    | cons b rest ih =>
      intro h
      rw [digitsFrom] at h
      obtain ⟨d, hd, h⟩ := Outcome.bind_eq_ok_iff.mp h
      obtain ⟨es, hes, h⟩ := Outcome.bind_eq_ok_iff.mp h
      cases h
      obtain ⟨hlt, rfl⟩ := eq_digitChar_of_digit hd
      obtain ⟨hall, rfl⟩ := ih hes
      exact ⟨by simpa using ⟨hlt, hall⟩, rfl⟩
  · rintro ⟨hlt, rfl⟩
    induction ds generalizing index with
    | nil => rfl
    | cons d ds ih =>
      rw [List.map_cons, digitsFrom, digit_digitChar (hlt d (by simp)),
        ih fun e he => hlt e (List.mem_cons_of_mem _ he)]
      rfl

/-! ### Byte strings and texts -/

/-- The base-58 digits of a byte string in reading order. -/
def toDigits (bytes : Bytes) : List Nat := Radix.rebase 256 58 (bytes.map UInt8.toNat)

theorem lt_of_mem_toDigits {bytes : Bytes} {d : Nat} (hd : d ∈ toDigits bytes) : d < 58 :=
  Radix.lt_of_mem_rebase (by decide) hd

theorem length_zeros (bytes : Bytes) :
    (bytes.takeWhile (· == 0)).length =
      ((bytes.map UInt8.toNat).takeWhile (· == 0)).length := by
  have hzero : ((· == 0) ∘ UInt8.toNat) = fun b : UInt8 => b == 0 := by
    funext b
    simp [← UInt8.toNat_inj]
  rw [List.takeWhile_map, List.length_map, hzero]

/-- The text of a byte string is the characters of its digits. -/
theorem encode_eq (bytes : Bytes) :
    encode bytes = String.ofList ((toDigits bytes).map digitChar) := by
  rw [encode, toDigits, Radix.rebase, List.map_append, List.map_replicate, List.map_reverse,
    length_zeros, Bytes.toNatBE_eq_ofDigits]
  rfl

/-- A digit list and the byte string that it writes are digits of one number. -/
theorem ofDigits_eq (ds : List Nat) : ofDigits ds = (Radix.rebase 58 256 ds).map UInt8.ofNat := by
  rw [ofDigits, Radix.rebase, List.map_append, List.map_replicate, List.map_reverse]
  rfl

theorem ofDigits_toDigits (bytes : Bytes) : ofDigits (toDigits bytes) = bytes := by
  have hlt : ∀ n ∈ bytes.map UInt8.toNat, n < 256 := by
    simp only [List.mem_map]
    rintro n ⟨b, -, rfl⟩
    exact b.toNat_lt
  rw [ofDigits_eq, toDigits, Radix.rebase_rebase (by decide) (by decide) hlt]
  simp [Function.comp_def]

theorem toDigits_ofDigits {ds : List Nat} (hlt : ∀ d ∈ ds, d < 58) :
    toDigits (ofDigits ds) = ds := by
  have hbytes : (Radix.rebase 58 256 ds).map (UInt8.toNat ∘ UInt8.ofNat) =
      Radix.rebase 58 256 ds := by
    conv_rhs => rw [← List.map_id (Radix.rebase 58 256 ds)]
    exact List.map_congr_left fun n hn =>
      Bytes.toNat_byte (Radix.lt_of_mem_rebase (by decide) hn)
  rw [toDigits, ofDigits_eq, List.map_map, hbytes,
    Radix.rebase_rebase (by decide) (by decide) hlt]

/-- The text of a byte string is ASCII, and its bytes write the digits of the byte string. -/
theorem utf8_encode (bytes : Bytes) :
    Bytes.utf8 (encode bytes) =
      (toDigits bytes).map fun d => UInt8.ofNat (digitChar d).toNat := by
  rw [encode_eq, Bytes.utf8_ofList, List.map_map]
  · rfl
  · simp only [List.mem_map]
    rintro c ⟨d, hd, rfl⟩
    exact digitChar_ascii d (lt_of_mem_toDigits hd)

/-- A text decodes to a byte string exactly if it is the text of it. -/
theorem decode_eq_ok_iff {text : String} {bytes : Bytes} :
    decode text = .ok bytes ↔ text = encode bytes := by
  simp only [decode, Outcome.bind_eq_ok_iff, digitsFrom_eq_ok_iff, Outcome.pure_eq_ok,
    Except.ok.injEq]
  constructor
  · rintro ⟨ds, ⟨hlt, hutf8⟩, rfl⟩
    apply Bytes.utf8_injective
    rw [hutf8, utf8_encode, toDigits_ofDigits hlt]
  · rintro rfl
    exact ⟨toDigits bytes, ⟨fun d => lt_of_mem_toDigits, utf8_encode bytes⟩,
      ofDigits_toDigits bytes⟩

/-- Different byte strings have different texts. -/
theorem encode_inj {x y : Bytes} : encode x = encode y ↔ x = y := by
  refine ⟨fun h => ?_, congrArg _⟩
  have hx := decode_eq_ok_iff.mpr (Eq.refl (encode x))
  rw [h, decode_eq_ok_iff.mpr rfl] at hx
  exact (Except.ok.inj hx).symm

/-! ### Texts of the alphabet -/

theorem digitChar_mem_alphabet : ∀ d < 58, digitChar d ∈ alphabet := by decide

theorem idxOf_lt {c : Char} (hc : c ∈ alphabet) : alphabet.idxOf c < 58 :=
  List.idxOf_lt_length_of_mem hc

theorem digitChar_idxOf {c : Char} (hc : c ∈ alphabet) : digitChar (alphabet.idxOf c) = c := by
  rw [digitChar, List.getD_eq_getElem _ _ (List.idxOf_lt_length_of_mem hc), List.getElem_idxOf]

theorem mem_alphabet_of_mem_encode {bytes : Bytes} {c : Char} (hc : c ∈ (encode bytes).toList) :
    c ∈ alphabet := by
  rw [encode_eq, String.toList_ofList] at hc
  obtain ⟨d, hd, rfl⟩ := List.mem_map.mp hc
  exact digitChar_mem_alphabet d (lt_of_mem_toDigits hd)

/-- A text is the text of a byte string exactly if all its characters are digits. -/
theorem exists_eq_encode_iff {text : String} :
    (∃ bytes, text = encode bytes) ↔ ∀ c ∈ text.toList, c ∈ alphabet := by
  constructor
  · rintro ⟨bytes, rfl⟩ c
    exact mem_alphabet_of_mem_encode
  · intro h
    set ds := text.toList.map (alphabet.idxOf ·) with hds
    have hlt : ∀ d ∈ ds, d < 58 := by
      intro d hd
      obtain ⟨c, hc, rfl⟩ := List.mem_map.mp hd
      exact idxOf_lt (h c hc)
    have hchars : ds.map digitChar = text.toList := by
      rw [hds, List.map_map]
      exact (List.map_congr_left fun c hc => digitChar_idxOf (h c hc)).trans (List.map_id _)
    exact ⟨ofDigits ds, by
      rw [encode_eq, toDigits_ofDigits hlt, hchars, String.ofList_toList]⟩

/-! ### Texts that are not written in base 58 -/

/-- The error of a character that is no digit: an ASCII one is reported by its byte. -/
def faultOf (c : Char) (index : Nat) : Error :=
  if c.toNat < 128 then .invalidDigit (UInt8.ofNat c.toNat) index else .notAscii index

/-- The form of a character outside ASCII begins with a byte outside ASCII. -/
theorem utf8EncodeChar_of_not_ascii {c : Char} (hc : ¬ c.toNat < 128) :
    ∃ b rest, String.utf8EncodeChar c = b :: rest ∧ 128 ≤ b.toNat := by
  have hascii : ¬ c.val.toNat ≤ 127 := fun h => hc (Nat.lt_succ_of_le h)
  simp only [String.utf8EncodeChar, if_neg hascii]
  split
  · exact ⟨_, _, rfl, by rw [UInt8.toNat_ofNat']; omega⟩
  · split
    · exact ⟨_, _, rfl, by rw [UInt8.toNat_ofNat']; omega⟩
    · exact ⟨_, _, rfl, by rw [UInt8.toNat_ofNat']; omega⟩

theorem digitsFrom_digit {c : Char} (hc : c ∈ alphabet) (index : Nat) (rest : Bytes) :
    digitsFrom index (String.utf8EncodeChar c ++ rest) =
      (digitsFrom (index + 1) rest).map (alphabet.idxOf c :: ·) := by
  have hchar := digitChar_idxOf hc
  have hascii := digitChar_ascii _ (idxOf_lt hc)
  have hdigit := digit_digitChar (idxOf_lt hc) index
  rw [hchar] at hascii hdigit
  rw [Bytes.utf8EncodeChar_of_ascii hascii, List.singleton_append, digitsFrom, hdigit]
  cases digitsFrom (index + 1) rest <;> rfl

theorem digitsFrom_nondigit {c : Char} (hc : c ∉ alphabet) (index : Nat) (rest : Bytes) :
    digitsFrom index (String.utf8EncodeChar c ++ rest) = .error (faultOf c index) := by
  by_cases hascii : c.toNat < 128
  · have hbyte : (UInt8.ofNat c.toNat).toNat = c.toNat := Bytes.toNat_byte (by omega)
    have hnone : alphabet.idxOf? (Char.ofNat c.toNat) = none := by
      rwa [Char.ofNat_toNat, List.idxOf?_eq_none_iff]
    rw [Bytes.utf8EncodeChar_of_ascii hascii, List.singleton_append, digitsFrom, digit, hbyte,
      if_neg (by omega), hnone, faultOf, if_pos hascii]
    rfl
  · obtain ⟨b, tail, hform, hb⟩ := utf8EncodeChar_of_not_ascii hascii
    rw [hform, List.cons_append, digitsFrom, digit, if_pos hb, faultOf, if_neg hascii]
    rfl

/-- Digits are read up to the first character that is none. -/
theorem digitsFrom_eq_error {before after : List Char} {c : Char}
    (hbefore : ∀ d ∈ before, d ∈ alphabet) (hc : c ∉ alphabet) (index : Nat) :
    digitsFrom index ((before ++ c :: after).flatMap String.utf8EncodeChar) =
      .error (faultOf c (index + before.length)) := by
  induction before generalizing index with
  | nil => rw [List.nil_append, List.flatMap_cons, digitsFrom_nondigit hc]; rfl
  | cons d before ih =>
    rw [List.cons_append, List.flatMap_cons, digitsFrom_digit (hbefore d (by simp)),
      ih (fun e he => hbefore e (List.mem_cons_of_mem _ he)), List.length_cons,
      Nat.add_right_comm, Nat.add_assoc]
    rfl

/-- Where a text has a character that is no digit, it has a first one. -/
theorem exists_first_nondigit {text : String} (h : ¬ ∀ c ∈ text.toList, c ∈ alphabet) :
    ∃ before c after, text.toList = before ++ c :: after ∧ (∀ d ∈ before, d ∈ alphabet) ∧
      c ∉ alphabet := by
  simp only [not_forall] at h
  obtain ⟨e, he, hnot⟩ := h
  have hsome : (text.toList.find? (· ∉ alphabet)).isSome := by
    rw [List.find?_isSome]
    exact ⟨e, he, by simpa using hnot⟩
  obtain ⟨c, hfind⟩ := Option.isSome_iff_exists.mp hsome
  obtain ⟨hc, before, after, htext, hbefore⟩ := List.find?_eq_some_iff_append.mp hfind
  exact ⟨before, c, after, htext, by simpa using hbefore, by simpa using hc⟩

/-- A text fails to decode exactly because of its first character outside the alphabet. -/
theorem decode_eq_error_iff {text : String} {fault : Error} :
    decode text = .error fault ↔
      ∃ before c after, text.toList = before ++ c :: after ∧ (∀ d ∈ before, d ∈ alphabet) ∧
        c ∉ alphabet ∧ fault = faultOf c before.length := by
  have hdecode : ∀ before c after, text.toList = before ++ c :: after →
      (∀ d ∈ before, d ∈ alphabet) → c ∉ alphabet →
        decode text = .error (faultOf c before.length) := by
    intro before c after htext hbefore hc
    rw [decode, Bytes.utf8_eq_flatMap, htext, digitsFrom_eq_error hbefore hc, Nat.zero_add]
    rfl
  constructor
  · intro h
    have hnot : ¬ ∀ c ∈ text.toList, c ∈ alphabet := by
      intro hall
      obtain ⟨bytes, hbytes⟩ := exists_eq_encode_iff.mpr hall
      rw [decode_eq_ok_iff.mpr hbytes] at h
      cases h
    obtain ⟨before, c, after, htext, hbefore, hc⟩ := exists_first_nondigit hnot
    rw [hdecode before c after htext hbefore hc, Except.error.injEq] at h
    exact ⟨before, c, after, htext, hbefore, hc, h.symm⟩
  · rintro ⟨before, c, after, htext, hbefore, hc, rfl⟩
    exact hdecode before c after htext hbefore hc

end TezosWallet.Base58
