import Mathlib.Data.Nat.Digits.Lemmas
import TezosWallet.Arithmetic

/-!
# Digit lists and the numbers they write

A list of digits in reading order is fixed by the count of its leading zeros and by its number.
Texts and byte strings are two such lists for one number, so going from one base to another and
back is the identity, and the leading digits of a number are the digits of a quotient.

## Main definitions

* `Radix.rebase` — the digits of the same number, behind as many zeros, in another base.

## Main results

* `Radix.rebase_rebase` — changing the base and changing it back.
* `Radix.reverse_digits_eq_append`, `Radix.length_digits_of_div_ne_zero` — the leading digits of a
  number, and how many digits follow them.
-/

namespace TezosWallet.Radix

variable {base : Nat}

/-! ### The library's digits -/

theorem digits_of_ne_zero (hb : 2 ≤ base) {n : Nat} (hn : n ≠ 0) :
    digits base n = n % base :: digits base (n / base) := by
  rw [digits, if_neg (by omega)]

@[simp] theorem digits_zero (base : Nat) : digits base 0 = [] := by
  rw [digits, if_pos (Or.inl rfl)]

theorem digits_eq_natDigits (hb : 2 ≤ base) (n : Nat) : digits base n = Nat.digits base n := by
  fun_induction digits base n with
  | case1 n h =>
    obtain rfl : n = 0 := by omega
    simp
  | case2 n h ih => rw [ih, ← Nat.digits_def' (by omega) (by omega)]

theorem ofDigits_eq_natOfDigits (base : Nat) (ds : List Nat) :
    ofDigits base ds = Nat.ofDigits base ds := by
  induction ds with
  | nil => rfl
  | cons d ds ih => rw [ofDigits, ih, Nat.ofDigits_cons]

/-- The digits of a number are below the base. -/
theorem lt_of_mem_digits (hb : 2 ≤ base) {n d : Nat} (hd : d ∈ digits base n) : d < base := by
  rw [digits_eq_natDigits hb] at hd
  exact Nat.digits_lt_base (by omega) hd

/-- A digit list without a zero at its end is the one of its number. -/
theorem digits_ofDigits (hb : 2 ≤ base) {ds : List Nat} (hlt : ∀ d ∈ ds, d < base)
    (hlast : ∀ h : ds ≠ [], ds.getLast h ≠ 0) : digits base (ofDigits base ds) = ds := by
  rw [digits_eq_natDigits hb, ofDigits_eq_natOfDigits]
  exact Nat.digits_ofDigits base (by omega) ds hlt hlast

/-! ### Leading zeros -/

/-- The digits of the same number, behind as many zeros, in another base. -/
def rebase (source target : Nat) (ds : List Nat) : List Nat :=
  List.replicate (ds.takeWhile (· == 0)).length 0 ++
    (digits target (ofDigits source ds.reverse)).reverse

theorem takeWhile_reverse_digits (hb : 2 ≤ base) (n : Nat) :
    (digits base n).reverse.takeWhile (· == 0) = [] := by
  rcases eq_or_ne n 0 with rfl | hn
  · simp
  have hne : (Nat.digits base n).reverse ≠ [] := by simpa [Nat.digits_eq_nil_iff_eq_zero] using hn
  have hhead : (Nat.digits base n).reverse.head hne ≠ 0 := by
    rw [List.head_reverse]
    exact Nat.getLast_digit_ne_zero base hn
  rw [digits_eq_natDigits hb, ← List.cons_head_tail hne,
    List.takeWhile_cons_of_neg (by simpa using hhead)]

/-- Zeros in front of the digits of a number are exactly the leading zeros. -/
theorem length_takeWhile_zeros (hb : 2 ≤ base) (zeros n : Nat) :
    ((List.replicate zeros 0 ++ (digits base n).reverse).takeWhile (· == 0)).length = zeros := by
  rw [List.takeWhile_append_of_pos (by simp), takeWhile_reverse_digits hb]
  simp

/-- Zeros in front of the digits of a number do not change it. -/
theorem ofDigits_reverse_zeros (hb : 2 ≤ base) (zeros n : Nat) :
    ofDigits base (List.replicate zeros 0 ++ (digits base n).reverse).reverse = n := by
  rw [List.reverse_append, List.reverse_reverse, List.reverse_replicate, ofDigits_eq_natOfDigits,
    Nat.ofDigits_append_replicate_zero, ← ofDigits_eq_natOfDigits, ofDigits_digits hb]

/-- A digit list is its leading zeros and the digits of its number. -/
theorem rebase_self (hb : 2 ≤ base) {ds : List Nat} (hlt : ∀ d ∈ ds, d < base) :
    rebase base base ds = ds := by
  induction ds with
  | nil => simp [rebase, ofDigits]
  | cons d rest ih =>
    rcases eq_or_ne d 0 with rfl | hd
    · have hnumber : ofDigits base (0 :: rest).reverse = ofDigits base rest.reverse := by
        simp only [ofDigits_eq_natOfDigits, List.reverse_cons, Nat.ofDigits_append_zero]
      have hzeros : (0 :: rest).takeWhile (· == 0) = 0 :: rest.takeWhile (· == 0) := by simp
      rw [rebase, hnumber, hzeros, List.length_cons, List.replicate_succ, List.cons_append]
      exact congrArg _ (ih fun e he => hlt e (List.mem_cons_of_mem _ he))
    · have hzeros : (d :: rest).takeWhile (· == 0) = [] := by simp [hd]
      have hlt' : ∀ e ∈ (d :: rest).reverse, e < base := fun e he => hlt e (List.mem_reverse.mp he)
      rw [rebase, hzeros, digits_ofDigits hb hlt' (by simpa using hd)]
      simp

/-- Changing the base and changing it back gives the digits one began with. -/
theorem rebase_rebase {source target : Nat} (hs : 2 ≤ source) (ht : 2 ≤ target) {ds : List Nat}
    (hlt : ∀ d ∈ ds, d < source) : rebase target source (rebase source target ds) = ds := by
  conv_rhs => rw [← rebase_self hs hlt]
  rw [rebase, rebase, length_takeWhile_zeros ht, ofDigits_reverse_zeros ht, rebase]

/-- The digits in a new base are below it. -/
theorem lt_of_mem_rebase {source target : Nat} (ht : 2 ≤ target) {ds : List Nat} {d : Nat}
    (hd : d ∈ rebase source target ds) : d < target := by
  rw [rebase, List.mem_append, List.mem_reverse] at hd
  rcases hd with hd | hd
  · obtain rfl := List.eq_of_mem_replicate hd
    omega
  · exact lt_of_mem_digits ht hd

/-! ### Leading digits -/

/-- Dropping low digits divides by a power of the base. -/
theorem drop_digits (hb : 2 ≤ base) (k n : Nat) :
    (digits base n).drop k = digits base (n / base ^ k) := by
  induction k generalizing n with
  | zero => simp
  | succ k ih =>
    rcases eq_or_ne n 0 with rfl | hn
    · simp
    · rw [digits_of_ne_zero hb hn, List.drop_succ_cons, ih, Nat.div_div_eq_div_mul, pow_succ']

/-- In reading order, a number begins with the digits of its quotient by a power of the base. -/
theorem reverse_digits_eq_append (hb : 2 ≤ base) (k n : Nat) :
    (digits base n).reverse =
      (digits base (n / base ^ k)).reverse ++ ((digits base n).take k).reverse := by
  rw [← drop_digits hb, ← List.reverse_append, List.take_append_drop]

/-- A quotient that is not zero has exactly as many digits less as the power says. -/
theorem length_digits_of_div_ne_zero (hb : 2 ≤ base) {k n : Nat} (h : n / base ^ k ≠ 0) :
    (digits base n).length = (digits base (n / base ^ k)).length + k := by
  have hdrop : (digits base (n / base ^ k)).length = (digits base n).length - k := by
    rw [← drop_digits hb, List.length_drop]
  have hpos : 0 < (digits base (n / base ^ k)).length := by
    rw [digits_of_ne_zero hb h]
    exact Nat.succ_pos _
  omega

end TezosWallet.Radix
