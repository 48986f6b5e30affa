/-!
# Arithmetic

Field elements are integers reduced with `%`, which is never negative for a positive modulus. A
number in base `b` is the list of its digits, least significant first and without zeros at the
end; zero has no digits.

## Main definitions

* `Modular.pow` — powers by repeated squaring.
* `Modular.inv` — the inverse modulo a prime, as a power.
* `Radix.digits` — the digits of a number.
* `Radix.ofDigits` — the number of a digit list.
-/

namespace TezosWallet.Modular

/-- `x ^ e` modulo `m`, for an exponent of at most `bits` bits. -/
def pow (m x : Int) : (bits e : Nat) → Int
  | 0, _ => 1 % m
  | bits + 1, e =>
    let half := pow m x bits (e / 2)
    let square := half * half % m
    if e % 2 = 1 then square * x % m else square

/-- The inverse of `x` modulo a prime of at most 256 bits; zero has the inverse zero. -/
def inv (m : Nat) (x : Int) : Int := pow m x 256 (m - 2)

end TezosWallet.Modular

namespace TezosWallet.Radix

/-- The digits of a number, least significant first. No digits are given below base two. -/
def digits (base n : Nat) : List Nat :=
  if n = 0 ∨ base < 2 then [] else n % base :: digits base (n / base)
termination_by n
decreasing_by exact Nat.div_lt_self (by omega) (by omega)

/-- The number whose digits, least significant first, are given. -/
def ofDigits (base : Nat) : List Nat → Nat
  | [] => 0
  | d :: ds => d + base * ofDigits base ds

theorem ofDigits_digits {base : Nat} (hb : 2 ≤ base) (n : Nat) :
    ofDigits base (digits base n) = n := by
  fun_induction digits base n with
  | case1 n h => rcases h with rfl | h <;> simp [ofDigits]; omega
  | case2 n _ ih => rw [ofDigits, ih]; exact Nat.mod_add_div n base

end TezosWallet.Radix
