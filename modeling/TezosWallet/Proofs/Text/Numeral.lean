import Mathlib.Data.Nat.Digits.Lemmas
import TezosWallet.Text.Numeral

/-!
# Numerals of numbers

A plain numeral is one or more decimal digits behind an optional sign. Zeros may lead, so a number
has many numerals, and it is the sum of its digits by place, however many they are. The decimal
digits of a number without a leading zero are a numeral of it in each of the grammars.

## Main definitions

* `Numeral.Digits` — digits and the number they write.
* `Numeral.WritesNatural`, `Numeral.WritesInteger` — plain numerals of a number.

## Main results

* `Numeral.natural?_eq_some_iff`, `Numeral.integer?_eq_some_iff` — the texts that are read as a
  number.
* `Numeral.natural?_toString`, `Numeral.integer?_toString`, `Numeral.spacedInteger?_toString`.
-/

namespace TezosWallet.Numeral

/-! ### Plain numerals -/

/-- One or more ASCII digits, most significant first, and the number that they write in base ten.
Zeros may lead. -/
structure Digits (cs : List Char) (n : Nat) : Prop where
  ne_nil : cs ≠ []
  bounds : ∀ c ∈ cs, '0' ≤ c ∧ c ≤ '9'
  value_eq : Nat.ofDigits 10 (cs.map digitValue).reverse = n

/-- A natural number is written with or without a plus sign. -/
inductive WritesNatural : List Char → Nat → Prop
  | bare {cs : List Char} {n : Nat} (digits : Digits cs n) : WritesNatural cs n
  | plus {cs : List Char} {n : Nat} (digits : Digits cs n) : WritesNatural ('+' :: cs) n

/-- An integer is written with or without a sign. -/
inductive WritesInteger : List Char → Int → Prop
  | bare {cs : List Char} {n : Nat} (digits : Digits cs n) : WritesInteger cs n
  | plus {cs : List Char} {n : Nat} (digits : Digits cs n) : WritesInteger ('+' :: cs) n
  | minus {cs : List Char} {n : Nat} (digits : Digits cs n) : WritesInteger ('-' :: cs) (-n)

theorem WritesNatural.writesInteger {cs : List Char} {n : Nat} (h : WritesNatural cs n) :
    WritesInteger cs n := by
  cases h with
  | bare digits => exact .bare digits
  | plus digits => exact .plus digits

theorem value_eq_ofDigits (cs : List Char) :
    value cs = Nat.ofDigits 10 (cs.map digitValue).reverse := by
  induction cs using List.reverseRecOn with
  | nil => rfl
  | append_singleton cs c ih =>
    rw [value, List.foldl_append, ← value, ih, List.map_append, List.reverse_append]
    simp [Nat.ofDigits_cons, Nat.add_comm]

theorem isDigit_iff {c : Char} : isDigit c = true ↔ '0' ≤ c ∧ c ≤ '9' := by
  simp [isDigit]

theorem digits?_eq_some_iff {cs : List Char} {n : Nat} : digits? cs = some n ↔ Digits cs n := by
  rw [digits?, value_eq_ofDigits]
  constructor
  · intro h
    split at h
    · next hcs =>
      rw [Bool.and_eq_true, List.all_eq_true] at hcs
      exact ⟨by simpa using hcs.1, fun c hc => isDigit_iff.mp (hcs.2 c hc), Option.some.inj h⟩
    · cases h
  · rintro ⟨hne, hdigits, rfl⟩
    have hcs : (!cs.isEmpty && cs.all isDigit) = true := by
      rw [Bool.and_eq_true, List.all_eq_true]
      exact ⟨by simpa using hne, fun c hc => isDigit_iff.mpr (hdigits c hc)⟩
    rw [if_pos hcs]

/-- Digits do not begin with a sign. -/
theorem Digits.ne_cons {cs rest : List Char} {c : Char} {n : Nat} (h : Digits cs n)
    (hc : isDigit c = false) : cs ≠ c :: rest := by
  rintro rfl
  rw [isDigit_iff.mpr (h.bounds c (by simp))] at hc
  cases hc

/-- The texts of a natural number are its plain numerals. -/
theorem natural?_eq_some_iff {text : String} {n : Nat} :
    natural? text = some n ↔ WritesNatural text.toList n := by
  rw [natural?]
  constructor
  · intro h
    split at h
    · next heq => exact heq ▸ .plus (digits?_eq_some_iff.mp h)
    · exact .bare (digits?_eq_some_iff.mp h)
  · intro h
    generalize text.toList = cs at h
    cases h with
    | plus digits => exact digits?_eq_some_iff.mpr digits
    | bare digits =>
      split
      · exact absurd rfl (digits.ne_cons rfl)
      · exact digits?_eq_some_iff.mpr digits

/-- The texts of an integer are its plain numerals. -/
theorem integer?_eq_some_iff {text : String} {z : Int} :
    integer? text = some z ↔ WritesInteger text.toList z := by
  rw [integer?]
  constructor
  · intro h
    split at h <;> obtain ⟨n, hn, rfl⟩ := Option.map_eq_some_iff.mp h
    · next heq => exact heq ▸ .plus (digits?_eq_some_iff.mp hn)
    · next heq => exact heq ▸ .minus (digits?_eq_some_iff.mp hn)
    · exact .bare (digits?_eq_some_iff.mp hn)
  · intro h
    generalize text.toList = cs at h
    cases h with
    | plus digits | minus digits =>
      exact Option.map_eq_some_iff.mpr ⟨_, digits?_eq_some_iff.mpr digits, rfl⟩
    | bare digits =>
      split
      · exact absurd rfl (digits.ne_cons rfl)
      · exact absurd rfl (digits.ne_cons rfl)
      · exact Option.map_eq_some_iff.mpr ⟨_, digits?_eq_some_iff.mpr digits, rfl⟩

/-! ### The decimal digits of a number -/

theorem isDigit_eq (c : Char) : isDigit c = c.isDigit := rfl

theorem isDigit_of_mem_toDigits {n : Nat} {c : Char} (hc : c ∈ Nat.toDigits 10 n) : isDigit c := by
  rw [isDigit_eq]
  exact Nat.isDigit_of_mem_toDigits (by decide) (by decide) hc

theorem digits?_toDigits (n : Nat) : digits? (Nat.toDigits 10 n) = some n := by
  have hdigits : (Nat.toDigits 10 n).all isDigit :=
    List.all_eq_true.mpr fun _ hc => isDigit_of_mem_toDigits hc
  have hvalue : value (Nat.toDigits 10 n) = n := Nat.ofDigitChars_ten_toDigits
  rw [digits?, hdigits, hvalue]
  simp

/-- Digits are spaced digits. -/
theorem spacedDigits?_toDigits (n : Nat) : spacedDigits? (Nat.toDigits 10 n) = some n := by
  have hhead : (Nat.toDigits 10 n).head? ≠ some '_' := fun h =>
    Nat.underscore_not_in_toDigits (List.mem_of_head? h)
  have hfilter : (Nat.toDigits 10 n).filter (· != '_') = Nat.toDigits 10 n :=
    List.filter_eq_self.mpr fun c hc => bne_iff_ne.mpr fun h =>
      Nat.underscore_not_in_toDigits (h ▸ hc)
  rw [spacedDigits?, hfilter, if_neg (by simpa using hhead), digits?_toDigits]

/-- The digits of a number do not begin with a sign. -/
theorem toDigits_ne_cons {c : Char} (hc : isDigit c = false) (n : Nat) (cs : List Char) :
    Nat.toDigits 10 n ≠ c :: cs := by
  intro h
  have hdigit : isDigit c = true := isDigit_of_mem_toDigits (h ▸ List.mem_cons_self)
  rw [hc] at hdigit
  cases hdigit

theorem natural?_toString (n : Nat) : natural? (toString n) = some n := by
  rw [natural?, Nat.toString_eq_repr, Nat.toList_repr]
  split
  · next heq => exact absurd heq (toDigits_ne_cons rfl n _)
  · exact digits?_toDigits n

/-- The text of an integer is its digits, behind a minus sign if it is negative. -/
theorem toList_toString_int (z : Int) :
    (∃ n : Nat, z = n ∧ (toString z).toList = Nat.toDigits 10 n) ∨
      ∃ n : Nat, z = -n ∧ (toString z).toList = '-' :: Nat.toDigits 10 n := by
  rw [Int.toString_eq_repr, Int.repr_eq_if]
  split
  · exact .inl ⟨z.toNat, by omega, Nat.toList_repr⟩
  · refine .inr ⟨(-z).toNat, by omega, ?_⟩
    rw [String.toList_append, Nat.toList_repr]
    rfl

theorem integer?_toString (z : Int) : integer? (toString z) = some z := by
  rw [integer?]
  obtain ⟨n, hz, hlist⟩ | ⟨n, hz, hlist⟩ := toList_toString_int z
  · rw [hlist]
    split
    · next heq => exact absurd heq (toDigits_ne_cons rfl n _)
    · next heq => exact absurd heq (toDigits_ne_cons rfl n _)
    · rw [digits?_toDigits, hz, Option.map_some, Int.ofNat_eq_natCast]
  · have hread : (digits? (Nat.toDigits 10 n)).map (fun n => -Int.ofNat n) = some z := by
      rw [digits?_toDigits, hz, Option.map_some, Int.ofNat_eq_natCast]
    rw [hlist]
    exact hread

theorem spacedInteger?_toString (z : Int) : spacedInteger? (toString z) = some z := by
  rw [spacedInteger?]
  obtain ⟨n, hz, hlist⟩ | ⟨n, hz, hlist⟩ := toList_toString_int z
  · rw [hlist]
    split
    · next heq => exact absurd heq (toDigits_ne_cons rfl n _)
    · next heq => exact absurd heq (toDigits_ne_cons rfl n _)
    · rw [spacedDigits?_toDigits, hz, Option.map_some, Int.ofNat_eq_natCast]
  · have hread : (spacedDigits? (Nat.toDigits 10 n)).map (fun n => -Int.ofNat n) = some z := by
      rw [spacedDigits?_toDigits, hz, Option.map_some, Int.ofNat_eq_natCast]
    rw [hlist]
    exact hread

end TezosWallet.Numeral
