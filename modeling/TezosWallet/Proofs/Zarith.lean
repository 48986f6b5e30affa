import TezosWallet.Proofs.Bytes
import TezosWallet.Zarith

/-!
# Variable-length integers end by themselves

A number's bytes tell where they end, so a number can be read back from the front of any byte
string that begins with it, and two numbers in front of anything differ if the numbers do.

## Main results

* `Zarith.natural?_encodeNatural_append`, `Zarith.integer?_encodeInteger_append` — reading a
  number with whatever follows it.
* `Zarith.encodeNatural_append_inj`, `Zarith.encodeInteger_append_inj`.
-/

namespace TezosWallet.Zarith

theorem encodeNatural_of_lt {n : Nat} (h : n < 128) : encodeNatural n = [UInt8.ofNat n] := by
  rw [encodeNatural, if_pos h]

theorem encodeNatural_of_le {n : Nat} (h : 128 ≤ n) :
    encodeNatural n = UInt8.ofNat (128 + n % 128) :: encodeNatural (n / 128) := by
  rw [encodeNatural, if_neg (by omega)]

/-- The natural number at the front of its own bytes, whatever follows them. -/
theorem natural?_encodeNatural_append (n : Nat) (rest : Bytes) :
    natural? (encodeNatural n ++ rest) = some (n, (encodeNatural n).length) := by
  induction n using Nat.strongRecOn with
  | ind n ih =>
    rcases Nat.lt_or_ge n 128 with h | h
    · have hbyte : (UInt8.ofNat n).toNat = n := Bytes.toNat_byte (by omega)
      rw [encodeNatural_of_lt h, List.singleton_append, natural?, hbyte, if_pos h]
      rfl
    · have hbyte : (UInt8.ofNat (128 + n % 128)).toNat = 128 + n % 128 :=
        Bytes.toNat_byte (by omega)
      have hvalue : (128 + n % 128) % 128 + 128 * (n / 128) = n := by omega
      rw [encodeNatural_of_le h, List.cons_append, natural?, hbyte, if_neg (by omega),
        ih (n / 128) (by omega), Option.map_some]
      dsimp only
      rw [hvalue, List.length_cons]

/-- The integer at the front of its own bytes, whatever follows them. -/
theorem integer?_encodeInteger_append (z : Int) (rest : Bytes) :
    integer? (encodeInteger z ++ rest) = some (z, (encodeInteger z).length) := by
  have hsign : (if z < 0 then 64 else 0) = 0 ∧ 0 ≤ z ∨ (if z < 0 then 64 else 0) = 64 ∧ z < 0 := by
    split <;> omega
  simp only [encodeInteger]
  generalize (if z < 0 then 64 else 0) = sign at hsign ⊢
  split
  · next h =>
    have hbyte : (UInt8.ofNat (sign + z.natAbs)).toNat = sign + z.natAbs :=
      Bytes.toNat_byte (by omega)
    rw [List.singleton_append, integer?, hbyte]
    dsimp only
    rw [if_pos (by omega), Option.some.injEq, Prod.mk.injEq]
    exact ⟨by split <;> omega, rfl⟩
  · next h =>
    have hbyte : (UInt8.ofNat (128 + sign + z.natAbs % 64)).toNat = 128 + sign + z.natAbs % 64 :=
      Bytes.toNat_byte (by omega)
    rw [List.cons_append, integer?, hbyte]
    dsimp only
    rw [if_neg (by omega), natural?_encodeNatural_append, Option.map_some, Option.some.injEq,
      Prod.mk.injEq]
    exact ⟨by split <;> omega, rfl⟩

/-- Bytes that both begin with a number begin with the same one. -/
theorem encodeNatural_append_inj {m n : Nat} {s t : Bytes} :
    encodeNatural m ++ s = encodeNatural n ++ t ↔ m = n ∧ s = t := by
  refine ⟨fun h => ?_, fun ⟨hn, ht⟩ => hn ▸ ht ▸ rfl⟩
  have hread := natural?_encodeNatural_append m s
  rw [h, natural?_encodeNatural_append, Option.some.injEq, Prod.mk.injEq] at hread
  exact ⟨hread.1.symm, (List.append_inj h hread.2.symm).2⟩

theorem encodeInteger_append_inj {y z : Int} {s t : Bytes} :
    encodeInteger y ++ s = encodeInteger z ++ t ↔ y = z ∧ s = t := by
  refine ⟨fun h => ?_, fun ⟨hz, ht⟩ => hz ▸ ht ▸ rfl⟩
  have hread := integer?_encodeInteger_append y s
  rw [h, integer?_encodeInteger_append, Option.some.injEq, Prod.mk.injEq] at hread
  exact ⟨hread.1.symm, (List.append_inj h hread.2.symm).2⟩

end TezosWallet.Zarith
