import Mathlib.FieldTheory.Finite.Basic
import TezosWallet.Arithmetic

/-!
# Powers and inverses in a prime field

The integers that stand for field elements are reduced by `%`, so they have one residue and one
natural number each. Repeated squaring gives powers, and by Fermat's theorem one power gives
inverses.

## Main results

* `Modular.cast_pow`, `Modular.cast_inv` — the residues of powers and of inverses.
* `Modular.pow_emod` — powers are reduced.
* `Modular.toNat_emod` — the number of a reduced integer.
* `Modular.cast_of_parity` — which of two opposite roots has a given parity.
-/

namespace TezosWallet.Modular

/-- Reduction keeps the residue. -/
theorem cast_emod (m : Nat) (x : Int) : ((x % m : Int) : ZMod m) = x := ZMod.intCast_mod x m

theorem cast_eq_zero_iff {m : Nat} {x : Int} : (x : ZMod m) = 0 ↔ x % m = 0 := by
  rw [ZMod.intCast_zmod_eq_zero_iff_dvd, Int.dvd_iff_emod_eq_zero]

/-- A reduced integer is determined by its residue. -/
theorem eq_val {m : Nat} [NeZero m] {x : Int} (h : x % m = x) : x = ((x : ZMod m).val : Int) := by
  rw [ZMod.val_intCast, h]

theorem eq_of_cast_eq {m : Nat} {x y : Int} (hx : x % m = x) (hy : y % m = y)
    (h : (x : ZMod m) = y) : x = y := by
  rw [← hx, ← hy]
  exact (ZMod.intCast_eq_intCast_iff' x y m).mp h

/-- Repeated squaring gives powers, for exponents of the given number of bits. -/
theorem cast_pow {m : Nat} {x : Int} {bits e : Nat} (he : e < 2 ^ bits) :
    (pow m x bits e : ZMod m) = (x : ZMod m) ^ e := by
  induction bits generalizing e with
  | zero =>
    obtain rfl : e = 0 := by omega
    rw [pow, cast_emod, Int.cast_one, pow_zero]
  | succ bits ih =>
    have hhalf : e / 2 < 2 ^ bits := by rw [Nat.pow_succ] at he; omega
    have hsquare : ((pow m x bits (e / 2) : Int) : ZMod m) * pow m x bits (e / 2) =
        (x : ZMod m) ^ (2 * (e / 2)) := by
      rw [ih hhalf, ← pow_add, two_mul]
    rw [pow]
    split
    · next hodd =>
      rw [cast_emod, Int.cast_mul, cast_emod, Int.cast_mul, hsquare, ← pow_succ]
      congr 1
      omega
    · next heven =>
      rw [cast_emod, Int.cast_mul, hsquare]
      congr 1
      omega

theorem pow_emod (m x : Int) (bits e : Nat) : pow m x bits e % m = pow m x bits e := by
  cases bits with
  | zero => exact Int.emod_emod_of_dvd _ (dvd_refl m)
  | succ bits =>
    rw [pow]
    split <;> exact Int.emod_emod_of_dvd _ (dvd_refl m)

/-- The inverse of a residue; zero has the inverse zero on both sides. -/
theorem cast_inv {p : Nat} [Fact p.Prime] (hp : 2 < p) (hsize : p < 2 ^ 256) (x : Int) :
    (inv p x : ZMod p) = (x : ZMod p)⁻¹ := by
  rw [inv, cast_pow (by omega)]
  by_cases hx : (x : ZMod p) = 0
  · rw [hx, inv_zero, zero_pow (by omega)]
  · refine eq_inv_of_mul_eq_one_left ?_
    rw [← pow_succ, show p - 2 + 1 = p - 1 by omega, ZMod.pow_card_sub_one_eq_one hx]

/-- A reduced integer is the least number of its residue. -/
theorem toNat_emod (m : Nat) [NeZero m] (x : Int) : (x % m).toNat = (x : ZMod m).val := by
  rw [← ZMod.val_intCast, Int.toNat_natCast]

/-! ### Parity -/

variable {p : Nat} [Fact p.Prime]

/-- A residue and its opposite have numbers of different parity, unless both are zero. -/
theorem val_neg_mod_two (hp : p % 2 = 1) {y : ZMod p} (hy : y ≠ 0) :
    (-y).val % 2 ≠ y.val % 2 := by
  have hlt := y.val_lt
  rw [ZMod.neg_val, if_neg hy]
  omega

/-- Of a reduced root and its opposite, parity tells which one is meant. -/
theorem cast_of_parity (hp : p % 2 = 1) {r : Int} {y : ZMod p} (hr : r % p = r)
    (hroot : (r : ZMod p) ^ 2 = y ^ 2) :
    (r % 2 = (y.val % 2 : Nat) → (r : ZMod p) = y) ∧
      (r % 2 ≠ (y.val % 2 : Nat) → ((-r % p : Int) : ZMod p) = y) := by
  have hval := eq_val hr
  rw [cast_emod, Int.cast_neg]
  rcases sq_eq_sq_iff_eq_or_eq_neg.mp hroot with h | h
  · rw [h] at hval
    exact ⟨fun _ => h, fun hne => absurd (by rw [hval]; omega) hne⟩
  · refine ⟨fun heq => ?_, fun _ => by rw [h, neg_neg]⟩
    by_contra hne
    have hy : y ≠ 0 := fun h0 => hne (by rw [h, h0, neg_zero])
    rw [h] at hval
    exact val_neg_mod_two hp hy (by omega)

end TezosWallet.Modular
