import TezosWallet.Proofs.Hex
import TezosWallet.Expression

/-!
# Hexadecimal keys behind marks

The mark `0x` in front of a key in hexadecimal is dropped, and so is every further mark behind it.
As no hexadecimal digit is an `x`, the marks and what stands behind them are settled by the text: it
is a key exactly if what stands behind its marks is hexadecimal. So a text with several marks,
which is hexadecimal neither as it stands nor behind one mark, names the entry that it names
without them.

## Main definitions

* `Expression.mark` — a text behind a number of marks.
* `Expression.MarkedHex` — a text writes bytes in hexadecimal behind a number of marks.

## Main results

* `Expression.MarkedHex.unique` — the number of marks and the bytes are settled by the text.
* `Expression.ofHex_of_markedHex`, `Expression.markedHex_of_ofHex` — the texts that are keys.
* `Expression.ofHex_outcome` — what becomes of every text.
-/

namespace TezosWallet.Expression

/-- A text behind `n` marks. -/
def mark : Nat → String → String
  | 0, text => text
  | n + 1, text => "0x" ++ mark n text

/-- Behind `n` marks, the text writes the bytes in hexadecimal. -/
def MarkedHex (n : Nat) (text : String) (bytes : Bytes) : Prop :=
  ∃ digits, text = mark n digits ∧ Hex.Writes digits bytes

variable {text digits : String} {n m : Nat} {bytes bytes' : Bytes}

theorem length_mark (n : Nat) (text : String) : (mark n text).length = 2 * n + text.length := by
  induction n with
  | zero => simp [mark]
  | succ n ih =>
    have hmark : "0x".length = 2 := rfl
    rw [mark, String.length_append, ih, hmark]
    omega

/-! ### Dropping marks -/

theorem dropHexMarks_mark (n : Nat) (text : String) :
    dropHexMarks (mark n text).toList = dropHexMarks text.toList := by
  induction n with
  | zero => rfl
  | succ n ih =>
    rw [mark, String.toList_append]
    exact ih

/-- A text is what is left of it, behind the marks that were dropped. -/
theorem exists_eq_mark (cs : List Char) :
    ∃ n, String.ofList cs = mark n (String.ofList (dropHexMarks cs)) := by
  induction cs using dropHexMarks.induct with
  | case1 rest ih =>
    obtain ⟨n, hn⟩ := ih
    refine ⟨n + 1, ?_⟩
    rw [dropHexMarks, mark, ← hn, ← String.toList_inj]
    simp
  | case2 cs hcs =>
    refine ⟨0, ?_⟩
    rw [dropHexMarks, mark]
    exact hcs

/-- Digits are no marks. -/
theorem dropHexMarks_of_writes (h : Hex.Writes digits bytes) :
    dropHexMarks digits.toList = digits.toList := by
  have hx := Hex.not_mem_x_of_writes h
  rw [dropHexMarks.eq_def]
  split
  · next rest hdigits => exact absurd (by simp [hdigits]) hx
  · rfl

/-- What is left of a text behind its marks is what they stand in front of. -/
theorem dropHexMarks_mark_of_writes (h : Hex.Writes digits bytes) :
    String.ofList (dropHexMarks (mark n digits).toList) = digits := by
  rw [dropHexMarks_mark, dropHexMarks_of_writes h, String.ofList_toList]

/-- The number of marks and the bytes behind them are settled by the text. -/
theorem MarkedHex.unique (h : MarkedHex n text bytes) (h' : MarkedHex m text bytes') :
    n = m ∧ bytes = bytes' := by
  obtain ⟨digits, rfl, hwrites⟩ := h
  obtain ⟨digits', hmark, hwrites'⟩ := h'
  obtain rfl : digits = digits' := by
    rw [← dropHexMarks_mark_of_writes (n := n) hwrites, hmark, dropHexMarks_mark_of_writes hwrites']
  have hlength := congrArg String.length hmark
  rw [length_mark, length_mark] at hlength
  have hbytes := Hex.decode_of_writes hwrites
  rw [Hex.decode_of_writes hwrites', Except.ok.injEq] at hbytes
  exact ⟨by omega, hbytes.symm⟩

/-! ### Keys -/

/-- Marked hexadecimal is hexadecimal as it stands, behind one mark or behind several of them. -/
theorem exists_markedHex_iff :
    (∃ n, MarkedHex n text bytes) ↔
      Hex.Writes text bytes ∨ (∃ digits, text = "0x" ++ digits ∧ Hex.Writes digits bytes) ∨
        ∃ n, MarkedHex (n + 2) text bytes := by
  constructor
  · rintro ⟨_ | _ | n, hmarked⟩
    · obtain ⟨digits, rfl, hwrites⟩ := hmarked
      exact .inl hwrites
    · exact .inr (.inl hmarked)
    · exact .inr (.inr ⟨n, hmarked⟩)
  · rintro (hwrites | hmarked | ⟨n, hmarked⟩)
    · exact ⟨0, text, rfl, hwrites⟩
    · exact ⟨1, hmarked⟩
    · exact ⟨n + 2, hmarked⟩

theorem ofHex_of_markedHex (h : MarkedHex n text bytes) : ofHex text = .ok (ofBytes bytes) := by
  obtain ⟨digits, rfl, hwrites⟩ := h
  rw [ofHex, dropHexMarks_mark_of_writes hwrites, Hex.decode_of_writes hwrites]
  rfl

/-- A key is in hexadecimal behind its marks. -/
theorem markedHex_of_ofHex {identifier : String} (h : ofHex text = .ok identifier) :
    ∃ n bytes, MarkedHex n text bytes ∧ identifier = ofBytes bytes := by
  rw [ofHex] at h
  obtain ⟨bytes, hbytes, h⟩ := Outcome.bind_eq_ok_iff.mp h
  cases h
  obtain ⟨n, hmark⟩ := exists_eq_mark text.toList
  rw [String.ofList_toList] at hmark
  have hwrites := Hex.writes_of_decode (Outcome.mapError_eq_ok_iff.mp hbytes)
  exact ⟨n, bytes, ⟨_, hmark, hwrites⟩, rfl⟩

/-- There is no other fault in a key than that it is not hexadecimal. -/
theorem ofHex_cases (text : String) :
    (∃ identifier, ofHex text = .ok identifier) ∨ ∃ fault, ofHex text = .error (.notHex fault) := by
  rw [ofHex]
  cases Hex.decode (String.ofList (dropHexMarks text.toList)) with
  | ok bytes => exact .inl ⟨_, rfl⟩
  | error fault => exact .inr ⟨fault, rfl⟩

/-- A text is a key exactly if it is hexadecimal as it stands, behind one mark or behind several of
them, and it names the entry of the bytes that it writes. Every other text fails for not being
hexadecimal. -/
theorem ofHex_outcome (text : String) :
    (∀ identifier, ofHex text = .ok identifier ↔ ∃ bytes, identifier = ofBytes bytes ∧
      (Hex.Writes text bytes ∨ (∃ digits, text = "0x" ++ digits ∧ Hex.Writes digits bytes) ∨
        ∃ n, MarkedHex (n + 2) text bytes)) ∧
      ((∃ fault, ofHex text = .error (.notHex fault)) ↔ ∀ n bytes, ¬ MarkedHex n text bytes) := by
  refine ⟨fun identifier => ?_, ?_⟩
  · simp only [← exists_markedHex_iff]
    constructor
    · intro h
      obtain ⟨n, bytes, hmarked, hidentifier⟩ := markedHex_of_ofHex h
      exact ⟨bytes, hidentifier, n, hmarked⟩
    · rintro ⟨bytes, rfl, n, hmarked⟩
      exact ofHex_of_markedHex hmarked
  · constructor
    · rintro ⟨fault, hfault⟩ n bytes hmarked
      rw [ofHex_of_markedHex hmarked] at hfault
      cases hfault
    · intro hnone
      obtain ⟨identifier, hok⟩ | hfault := ofHex_cases text
      · obtain ⟨n, bytes, hmarked, -⟩ := markedHex_of_ofHex hok
        exact absurd hmarked (hnone n bytes)
      · exact hfault

/-- Two marks are one too many for hexadecimal, but the key is accepted as the one without them. -/
theorem ofHex_accepts_twoMarks :
    ofHex "0x0xcafe" = .ok (ofBytes [0xca, 0xfe]) ∧
      ∀ bytes, ¬ Hex.Writes "0x0xcafe" bytes ∧
        ∀ digits, "0x0xcafe" = "0x" ++ digits → ¬ Hex.Writes digits bytes := by
  have htwo : MarkedHex 2 "0x0xcafe" [0xca, 0xfe] :=
    ⟨"cafe", by decide, Hex.writes_iff.mpr (by decide)⟩
  refine ⟨ofHex_of_markedHex htwo, fun bytes => ⟨fun hwrites => ?_, fun digits hmark hwrites => ?_⟩⟩
  · have hnone : MarkedHex 0 "0x0xcafe" bytes := ⟨_, rfl, hwrites⟩
    cases (htwo.unique hnone).1
  · have hone : MarkedHex 1 "0x0xcafe" bytes := ⟨digits, hmark, hwrites⟩
    cases (htwo.unique hone).1

end TezosWallet.Expression
