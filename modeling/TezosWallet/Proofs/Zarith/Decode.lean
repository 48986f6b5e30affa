import Mathlib.Algebra.BigOperators.Intervals
import Mathlib.Algebra.BigOperators.Ring.Finset
import Mathlib.Data.Nat.Bitwise
import Mathlib.Tactic.Ring
import TezosWallet.Proofs.Outcome
import TezosWallet.Proofs.Zarith

/-!
# What is read from arbitrary bytes

A number ends at the first byte whose top bit is clear, and nothing behind that byte matters.
Bytes without such a byte are no number. The bits that are read need not be written as they were:
zero groups at the end are left out, and zero has no sign.

## Main definitions

* `Zarith.IsForm` — bytes that a reader takes as one number.
* `Zarith.naturalOf`, `Zarith.integerOf` — the numbers that the bits of such bytes add up to.
* `Zarith.WritesInteger` — the shortest bytes whose bits add up to an integer.

## Main results

* `Zarith.IsForm.natural?_append`, `Zarith.IsForm.integer?_append` — where a number ends, and what
  it is.
* `Zarith.IsForm.encodeNatural_eq_iff`, `Zarith.IsForm.encodeInteger_eq_iff` — which bytes are the
  ones that their number is written as.
* `Zarith.writesInteger_iff` — an integer is written as the shortest of its forms.
* `Zarith.any_bytes_read` — both readers on every byte string.
-/

namespace TezosWallet.Zarith

open Finset

/-! ### The bits of a byte -/

section Bits

variable {b : UInt8}

theorem and_two_pow_eq_zero_iff {i : Nat} (hi : i < 8) :
    b &&& UInt8.ofNat (2 ^ i) = 0 ↔ b.toNat / 2 ^ i % 2 = 0 := by
  have hmask : (UInt8.ofNat (2 ^ i)).toNat = 2 ^ i :=
    Bytes.toNat_byte (Nat.pow_lt_pow_right (by decide) hi)
  rw [← UInt8.toNat_inj, UInt8.toNat_and, hmask, Nat.and_two_pow, Nat.testBit_eq_decide_div_mod_eq]
  rcases Nat.mod_two_eq_zero_or_one (b.toNat / 2 ^ i) with h | h <;> simp [h]

/-- The top bit of a byte is clear. -/
theorem and_0x80_eq_zero_iff : b &&& 0x80 = 0 ↔ b.toNat < 128 := by
  have hb := b.toNat_lt
  have hbit : b &&& 0x80 = 0 ↔ b.toNat / 128 % 2 = 0 := and_two_pow_eq_zero_iff (i := 7) (by decide)
  rw [hbit]
  omega

theorem and_0x40_eq_zero_iff : b &&& 0x40 = 0 ↔ b.toNat / 64 % 2 = 0 :=
  and_two_pow_eq_zero_iff (i := 6) (by decide)

theorem toNat_and_0x7f : (b &&& 0x7f).toNat = b.toNat % 128 := by
  rw [UInt8.toNat_and]
  exact Nat.and_two_pow_sub_one_eq_mod b.toNat 7

theorem toNat_and_0x3f : (b &&& 0x3f).toNat = b.toNat % 64 := by
  rw [UInt8.toNat_and]
  exact Nat.and_two_pow_sub_one_eq_mod b.toNat 6

end Bits

/-! ### The bytes of one number -/

/-- The bytes of one number: each but the last announces another one by its top bit. -/
inductive IsForm : Bytes → Prop
  | last {b : UInt8} (hb : b &&& 0x80 = 0) : IsForm [b]
  | more {b : UInt8} {form : Bytes} (hb : b &&& 0x80 ≠ 0) (rest : IsForm form) : IsForm (b :: form)

/-- The number that groups of seven bits add up to, the least significant group first. -/
def naturalOf (form : Bytes) : Nat :=
  ∑ i ∈ range form.length, (form.getD i 0 &&& 0x7f).toNat * 2 ^ (7 * i)

/-- The number that a group of six bits and then groups of seven bits add up to. -/
def magnitudeOf (form : Bytes) : Nat :=
  (form.getD 0 0 &&& 0x3f).toNat +
    ∑ i ∈ Ico 1 form.length, (form.getD i 0 &&& 0x7f).toNat * 2 ^ (7 * i - 1)

/-- The magnitude with the sign of the first byte. -/
def integerOf (form : Bytes) : Int :=
  if form.getD 0 0 &&& 0x40 = 0 then magnitudeOf form else -magnitudeOf form

theorem naturalOf_nil : naturalOf [] = 0 := rfl

theorem naturalOf_cons (b : UInt8) (form : Bytes) :
    naturalOf (b :: form) = b.toNat % 128 + 128 * naturalOf form := by
  rw [naturalOf, List.length_cons, sum_range_succ', naturalOf, mul_sum, add_comm]
  congr 1
  · rw [List.getD_cons_zero, toNat_and_0x7f, Nat.mul_zero, pow_zero, mul_one]
  · refine sum_congr rfl fun i _ => ?_
    rw [List.getD_cons_succ, Nat.mul_succ, pow_add]
    ring

theorem naturalOf_singleton {b : UInt8} (hb : b &&& 0x80 = 0) : naturalOf [b] = b.toNat := by
  rw [naturalOf_cons, Nat.mod_eq_of_lt (and_0x80_eq_zero_iff.mp hb)]
  rfl

theorem magnitudeOf_cons (b : UInt8) (form : Bytes) :
    magnitudeOf (b :: form) = b.toNat % 64 + 64 * naturalOf form := by
  rw [magnitudeOf, List.getD_cons_zero, toNat_and_0x3f, List.length_cons, sum_Ico_eq_sum_range,
    naturalOf, mul_sum]
  congr 1
  refine sum_congr rfl fun i _ => ?_
  rw [Nat.add_comm 1 i, List.getD_cons_succ, show 7 * (i + 1) - 1 = 7 * i + 6 by omega, pow_add]
  ring

theorem integerOf_cons (b : UInt8) (form : Bytes) :
    integerOf (b :: form) =
      if b.toNat / 64 % 2 = 1 then -((b.toNat % 64 + 64 * naturalOf form : Nat) : Int)
      else (b.toNat % 64 + 64 * naturalOf form : Nat) := by
  simp only [integerOf, List.getD_cons_zero, and_0x40_eq_zero_iff, magnitudeOf_cons]
  split <;> split <;> first | rfl | omega

/-! ### Reading -/

section Reading

variable {form bytes : Bytes}

theorem IsForm.length_pos (h : IsForm form) : 0 < form.length := by
  cases h <;> exact Nat.succ_pos _

theorem IsForm.exists_mem (h : IsForm form) : ∃ b ∈ form, b &&& 0x80 = 0 := by
  induction h with
  | last hb => exact ⟨_, List.mem_cons_self, hb⟩
  | more _ _ ih =>
    obtain ⟨b, hmem, hb⟩ := ih
    exact ⟨b, List.mem_cons_of_mem _ hmem, hb⟩

/-- A byte string begins with the bytes of one number, unless each of its bytes announces another
one. -/
theorem isForm_append_or (bytes : Bytes) :
    (∃ form rest, IsForm form ∧ bytes = form ++ rest) ∨ ∀ b ∈ bytes, b &&& 0x80 ≠ 0 := by
  induction bytes with
  | nil => exact .inr (by simp)
  | cons b bytes ih =>
    by_cases hb : b &&& 0x80 = 0
    · exact .inl ⟨[b], bytes, .last hb, rfl⟩
    · obtain ⟨form, rest, hform, rfl⟩ | hbytes := ih
      · exact .inl ⟨b :: form, rest, .more hb hform, rfl⟩
      · exact .inr (List.forall_mem_cons.mpr ⟨hb, hbytes⟩)

/-- A number ends at the first byte whose top bit is clear. -/
theorem IsForm.findIdx?_append (h : IsForm form) (rest : Bytes) :
    (form ++ rest).findIdx? (fun b => b &&& 0x80 = 0) = some (form.length - 1) := by
  induction h with
  | last hb => simp [List.findIdx?_cons, hb]
  | more hb hform ih =>
    have hpos := hform.length_pos
    rw [List.cons_append, List.findIdx?_cons, ih, if_neg (by simpa using hb), Option.map_some,
      List.length_cons]
    congr 1
    omega

theorem IsForm.natural?_append (h : IsForm form) (rest : Bytes) :
    natural? (form ++ rest) = some (naturalOf form, form.length) := by
  induction h with
  | last hb =>
    rw [List.singleton_append, natural?, if_pos (and_0x80_eq_zero_iff.mp hb),
      naturalOf_singleton hb]
    rfl
  | more hb hform ih =>
    have hlt := and_0x80_eq_zero_iff.not.mp hb
    rw [List.cons_append, natural?, if_neg hlt, ih, Option.map_some, naturalOf_cons]
    rfl

theorem IsForm.integer?_append (h : IsForm form) (rest : Bytes) :
    integer? (form ++ rest) = some (integerOf form, form.length) := by
  cases h with
  | last hb =>
    rw [List.singleton_append, integer?, integerOf_cons]
    simp only [if_pos (and_0x80_eq_zero_iff.mp hb)]
    rfl
  | more hb hform =>
    have hlt := and_0x80_eq_zero_iff.not.mp hb
    rw [List.cons_append, integer?, integerOf_cons, hform.natural?_append]
    simp only [if_neg hlt, Option.map_some, List.length_cons]

theorem natural?_eq_none (h : ∀ b ∈ bytes, b &&& 0x80 ≠ 0) : natural? bytes = none := by
  induction bytes with
  | nil => rfl
  | cons b bytes ih =>
    obtain ⟨hb, hbytes⟩ := List.forall_mem_cons.mp h
    rw [natural?, if_neg (and_0x80_eq_zero_iff.not.mp hb), ih hbytes, Option.map_none]

theorem integer?_eq_none (h : ∀ b ∈ bytes, b &&& 0x80 ≠ 0) : integer? bytes = none := by
  cases bytes with
  | nil => rfl
  | cons b bytes =>
    obtain ⟨hb, hbytes⟩ := List.forall_mem_cons.mp h
    simp only [integer?, if_neg (and_0x80_eq_zero_iff.not.mp hb), natural?_eq_none hbytes,
      Option.map_none]

end Reading

/-! ### Writing what was read -/

section Writing

variable {form : Bytes}

/-- The bytes of a natural number other than zero do not end with zero. -/
theorem getLast?_encodeNatural {n : Nat} (hn : n ≠ 0) : (encodeNatural n).getLast? ≠ some 0 := by
  induction n using Nat.strongRecOn with
  | ind n ih =>
    rcases Nat.lt_or_ge n 128 with h | h
    · have hbyte : UInt8.ofNat n ≠ 0 := fun h0 => hn (by
        rw [← Bytes.toNat_byte (n := n) (by omega), h0]
        rfl)
      rw [encodeNatural_of_lt h]
      simpa using hbyte
    · have hne : encodeNatural (n / 128) ≠ [] := by
        rw [encodeNatural]
        split <;> simp
      rw [encodeNatural_of_le h, List.getLast?_cons_of_ne_nil hne]
      exact ih (n / 128) (by omega) (by omega)

/-- The byte of a small number is what the number is written as. -/
theorem encodeNatural_naturalOf_singleton {b : UInt8} (hb : b &&& 0x80 = 0) :
    encodeNatural (naturalOf [b]) = [b] := by
  rw [naturalOf_singleton hb, encodeNatural_of_lt (and_0x80_eq_zero_iff.mp hb), UInt8.ofNat_toNat]

/-- A byte that announces another one is written again, unless all groups after it are zero. -/
theorem encodeNatural_naturalOf_cons {b : UInt8} (hb : b &&& 0x80 ≠ 0) :
    encodeNatural (naturalOf (b :: form)) =
      if naturalOf form = 0 then [UInt8.ofNat (b.toNat % 128)]
      else b :: encodeNatural (naturalOf form) := by
  have hge := and_0x80_eq_zero_iff.not.mp hb
  have hlt := b.toNat_lt
  rw [naturalOf_cons]
  split
  · next h0 => rw [h0, Nat.mul_zero, Nat.add_zero, encodeNatural_of_lt (Nat.mod_lt _ (by decide))]
  · next h0 =>
    have hhead : 128 + (b.toNat % 128 + 128 * naturalOf form) % 128 = b.toNat := by omega
    have htail : (b.toNat % 128 + 128 * naturalOf form) / 128 = naturalOf form := by omega
    rw [encodeNatural_of_le (by omega), hhead, htail, UInt8.ofNat_toNat]

/-- Zero groups at the end are not written again. -/
theorem IsForm.length_encodeNatural_le (h : IsForm form) :
    (encodeNatural (naturalOf form)).length ≤ form.length := by
  induction h with
  | last hb => rw [encodeNatural_naturalOf_singleton hb]
  | more hb hform ih =>
    rw [encodeNatural_naturalOf_cons hb]
    split
    · exact Nat.succ_le_succ (Nat.zero_le _)
    · exact Nat.succ_le_succ ih

theorem IsForm.getLast?_cons {b : UInt8} (h : IsForm form) :
    (b :: form).getLast? = form.getLast? :=
  List.getLast?_cons_of_ne_nil (List.ne_nil_of_length_pos h.length_pos)

/-- Bytes that do not end with zero stand for a number other than zero, which is written as
them. -/
theorem IsForm.encodeNatural_eq (h : IsForm form) (hlast : form.getLast? ≠ some 0) :
    naturalOf form ≠ 0 ∧ encodeNatural (naturalOf form) = form := by
  induction h with
  | @last b hb =>
    have hb0 : b.toNat ≠ 0 := fun h0 => hlast (by
      rw [List.getLast?_singleton, UInt8.toNat_inj.mp (h0.trans UInt8.toNat_zero.symm)])
    exact ⟨(naturalOf_singleton hb).trans_ne hb0, encodeNatural_naturalOf_singleton hb⟩
  | more hb hform ih =>
    rw [hform.getLast?_cons] at hlast
    obtain ⟨hpos, hencode⟩ := ih hlast
    rw [encodeNatural_naturalOf_cons hb, if_neg hpos, hencode, naturalOf_cons]
    exact ⟨by omega, rfl⟩

/-- The groups after a byte are written as they were read exactly if they do not end with zero. -/
theorem IsForm.rest_eq_iff (h : IsForm form) :
    naturalOf form ≠ 0 ∧ encodeNatural (naturalOf form) = form ↔ form.getLast? ≠ some 0 := by
  refine ⟨fun ⟨hpos, hencode⟩ => ?_, h.encodeNatural_eq⟩
  rw [← hencode]
  exact getLast?_encodeNatural hpos

/-- The bytes of a natural number are the ones that it is written as exactly if they do not end
with a zero that could be left out. -/
theorem IsForm.encodeNatural_eq_iff (h : IsForm form) :
    encodeNatural (naturalOf form) = form ↔ form.length = 1 ∨ form.getLast? ≠ some 0 := by
  cases h with
  | last hb => simp [encodeNatural_naturalOf_singleton hb]
  | @more b form hb hform =>
    have hpos := hform.length_pos
    rw [hform.getLast?_cons, ← hform.rest_eq_iff, encodeNatural_naturalOf_cons hb, List.length_cons]
    split
    · next h0 =>
      have hlong : form.length + 1 ≠ 1 := by omega
      refine iff_of_false (fun heq => ?_) fun h => h.elim hlong fun h => h.1 h0
      exact hpos.ne (congrArg List.length (List.cons.inj heq).2)
    · next h0 => simp [h0, hpos.ne']

/-- The first byte of an integer is written again, except that zero has no sign and that no group
is announced if all groups after it are zero. -/
theorem encodeInteger_integerOf_cons (b : UInt8) (form : Bytes) :
    encodeInteger (integerOf (b :: form)) =
      if naturalOf form = 0 then [if b.toNat % 64 = 0 then 0 else UInt8.ofNat (b.toNat % 128)]
      else UInt8.ofNat (128 + b.toNat % 128) :: encodeNatural (naturalOf form) := by
  have hmagnitude : (integerOf (b :: form)).natAbs = b.toNat % 64 + 64 * naturalOf form := by
    rw [integerOf_cons]
    split <;> omega
  have hsign : (if integerOf (b :: form) < 0 then 64 else 0) =
      if b.toNat % 64 + 64 * naturalOf form = 0 then 0 else b.toNat / 64 % 2 * 64 := by
    rw [integerOf_cons]
    split_ifs <;> omega
  simp only [encodeInteger, hmagnitude, hsign]
  by_cases h0 : naturalOf form = 0
  · have hsmall : b.toNat % 64 + 64 * naturalOf form < 64 := by omega
    rw [if_pos hsmall, if_pos h0, h0, Nat.mul_zero, Nat.add_zero]
    split
    · next hzero => rw [hzero]; rfl
    · rw [show b.toNat / 64 % 2 * 64 + b.toNat % 64 = b.toNat % 128 by omega]
  · have hlarge : ¬ b.toNat % 64 + 64 * naturalOf form < 64 := by omega
    have hfirst : 128 + b.toNat / 64 % 2 * 64 + (b.toNat % 64 + 64 * naturalOf form) % 64 =
        128 + b.toNat % 128 := by omega
    have hrest : (b.toNat % 64 + 64 * naturalOf form) / 64 = naturalOf form := by omega
    rw [if_neg hlarge, if_neg h0, if_neg (by omega), hfirst, hrest]

theorem IsForm.length_encodeInteger_le (h : IsForm form) :
    (encodeInteger (integerOf form)).length ≤ form.length := by
  cases h with
  | last hb =>
    rw [encodeInteger_integerOf_cons, if_pos naturalOf_nil]
    rfl
  | more hb hform =>
    rw [encodeInteger_integerOf_cons]
    split
    · exact Nat.succ_le_succ (Nat.zero_le _)
    · exact Nat.succ_le_succ hform.length_encodeNatural_le

/-- The bytes of an integer are the ones that it is written as exactly if they are neither a zero
with a sign nor end with a zero that could be left out. -/
theorem IsForm.encodeInteger_eq_iff (h : IsForm form) :
    encodeInteger (integerOf form) = form ↔
      form.length = 1 ∧ form.head? ≠ some 0x40 ∨ 1 < form.length ∧ form.getLast? ≠ some 0 := by
  cases h with
  | @last b hb =>
    have hlt := and_0x80_eq_zero_iff.mp hb
    have hzero : b = 0x40 ∨ b = 0 ↔ b.toNat % 64 = 0 := by
      rw [← UInt8.toNat_inj, ← UInt8.toNat_inj, UInt8.toNat_zero,
        show (0x40 : UInt8).toNat = 64 from rfl]
      omega
    rw [encodeInteger_integerOf_cons, if_pos naturalOf_nil, Nat.mod_eq_of_lt hlt,
      UInt8.ofNat_toNat]
    by_cases h40 : b = 0x40
    · subst h40
      simp
    · by_cases h0 : b = 0
      · subst h0
        simp
      · rw [if_neg (hzero.not.mp (by simp [h40, h0]))]
        simp [h40]
  | @more b form hb hform =>
    have hpos := hform.length_pos
    have hge := and_0x80_eq_zero_iff.not.mp hb
    have hlt := b.toNat_lt
    have hbyte : UInt8.ofNat (128 + b.toNat % 128) = b := by
      rw [show 128 + b.toNat % 128 = b.toNat by omega, UInt8.ofNat_toNat]
    rw [hform.getLast?_cons, ← hform.rest_eq_iff, encodeInteger_integerOf_cons, hbyte,
      List.length_cons]
    split
    · next h0 =>
      have hlong : form.length + 1 ≠ 1 := by omega
      refine iff_of_false (fun heq => ?_) fun h => h.elim (fun h => hlong h.1) fun h => h.2.1 h0
      exact hpos.ne (congrArg List.length (List.cons.inj heq).2)
    · next h0 => simp [h0, hpos, hpos.ne']

end Writing

/-! ### What an integer is written as -/

/-- The bytes are a form of the integer, and none that could do without a byte or a sign. -/
structure WritesInteger (z : Int) (form : Bytes) : Prop where
  isForm : IsForm form
  integerOf_eq : integerOf form = z
  /-- One byte is no zero with a sign, and several do not end with a zero. -/
  shortest : form.length = 1 ∧ form.head? ≠ some 0x40 ∨ 1 < form.length ∧ form.getLast? ≠ some 0

/-- The bytes of an integer are a form of it. -/
theorem isForm_encodeInteger (z : Int) :
    IsForm (encodeInteger z) ∧ integerOf (encodeInteger z) = z := by
  have hread := integer?_encodeInteger_append z []
  rw [List.append_nil] at hread
  obtain ⟨form, rest, hform, heq⟩ | hnone := isForm_append_or (encodeInteger z)
  · rw [heq, hform.integer?_append, Option.some.injEq, Prod.mk.injEq, List.length_append] at hread
    obtain ⟨hvalue, hlength⟩ := hread
    obtain rfl : rest = [] := List.length_eq_zero_iff.mp (by omega)
    rw [List.append_nil] at heq
    rw [heq]
    exact ⟨hform, hvalue⟩
  · rw [integer?_eq_none hnone] at hread
    cases hread

/-- An integer is written as the shortest of its forms. -/
theorem writesInteger_iff {z : Int} {form : Bytes} :
    WritesInteger z form ↔ form = encodeInteger z := by
  constructor
  · rintro ⟨hform, rfl, hshort⟩
    exact (hform.encodeInteger_eq_iff.mpr hshort).symm
  · rintro rfl
    obtain ⟨hform, hvalue⟩ := isForm_encodeInteger z
    exact ⟨hform, hvalue, hform.encodeInteger_eq_iff.mp (congrArg encodeInteger hvalue)⟩

/-- Both readers give a number exactly if some byte has a clear top bit. The first such byte ends
the number, whose bits are those that the bytes up to there carry, whatever follows them. Written
again, the number never takes more bytes, and takes the same ones exactly if they neither end with
a zero that could be left out nor, for an integer, are a zero with a sign. Otherwise both readers
report all bytes. -/
theorem any_bytes_read (bytes : Bytes) :
    ((∃ number used, decodeNatural bytes = .ok (number, used)) ↔ ∃ b ∈ bytes, b &&& 0x80 = 0) ∧
    ((∃ number used, decodeInteger bytes = .ok (number, used)) ↔ ∃ b ∈ bytes, b &&& 0x80 = 0) ∧
    match bytes.findIdx? fun b => b &&& 0x80 = 0 with
    | none =>
      decodeNatural bytes = .error (.unterminated bytes.length) ∧
        decodeInteger bytes = .error (.unterminated bytes.length)
    | some index =>
      let used := index + 1
      let form := bytes.take used
      decodeNatural bytes = .ok (naturalOf form, used) ∧
        decodeInteger bytes = .ok (integerOf form, used) ∧
        (∀ rest, decodeNatural (form ++ rest) = decodeNatural bytes ∧
          decodeInteger (form ++ rest) = decodeInteger bytes) ∧
        (encodeNatural (naturalOf form)).length ≤ used ∧
        (encodeInteger (integerOf form)).length ≤ used ∧
        (encodeNatural (naturalOf form) = form ↔ used = 1 ∨ form.getLast? ≠ some 0) ∧
        (encodeInteger (integerOf form) = form ↔
          used = 1 ∧ form.head? ≠ some 0x40 ∨ 1 < used ∧ form.getLast? ≠ some 0) := by
  obtain ⟨form, rest, hform, rfl⟩ | hnone := isForm_append_or bytes
  · have hnatural (rest : Bytes) :
        decodeNatural (form ++ rest) = .ok (naturalOf form, form.length) :=
      Outcome.elim_eq_ok_iff.mpr (hform.natural?_append rest)
    have hinteger (rest : Bytes) :
        decodeInteger (form ++ rest) = .ok (integerOf form, form.length) :=
      Outcome.elim_eq_ok_iff.mpr (hform.integer?_append rest)
    have hmem : ∃ b ∈ form ++ rest, b &&& 0x80 = 0 := by
      obtain ⟨b, hmem, hb⟩ := hform.exists_mem
      exact ⟨b, List.mem_append_left _ hmem, hb⟩
    have hused : form.length - 1 + 1 = form.length := Nat.succ_pred_eq_of_pos hform.length_pos
    rw [hform.findIdx?_append rest]
    dsimp only
    rw [hused, List.take_left]
    exact ⟨iff_of_true ⟨_, _, hnatural rest⟩ hmem, iff_of_true ⟨_, _, hinteger rest⟩ hmem,
      hnatural rest, hinteger rest,
      fun other => ⟨(hnatural other).trans (hnatural rest).symm,
        (hinteger other).trans (hinteger rest).symm⟩,
      hform.length_encodeNatural_le, hform.length_encodeInteger_le, hform.encodeNatural_eq_iff,
      hform.encodeInteger_eq_iff⟩
  · have hnatural : decodeNatural bytes = .error (.unterminated bytes.length) := by
      rw [decodeNatural, natural?_eq_none hnone]
      rfl
    have hinteger : decodeInteger bytes = .error (.unterminated bytes.length) := by
      rw [decodeInteger, integer?_eq_none hnone]
      rfl
    have hmem : ¬ ∃ b ∈ bytes, b &&& 0x80 = 0 := by simpa using hnone
    have hindex : bytes.findIdx? (fun b => b &&& 0x80 = 0) = none :=
      List.findIdx?_eq_none_iff.mpr fun b hb => decide_eq_false (hnone b hb)
    rw [hindex]
    exact ⟨iff_of_false (by simp [hnatural]) hmem, iff_of_false (by simp [hinteger]) hmem,
      hnatural, hinteger⟩

end TezosWallet.Zarith
