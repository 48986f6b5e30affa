import Mathlib.Algebra.Group.Even
import Mathlib.Tactic.FieldSimp
import Mathlib.Tactic.LinearCombination
import Mathlib.Tactic.Ring

/-!
# The group of a twisted Edwards curve

Over a field where minus one is a square and `d` is not, the points of `-x² + y² = 1 + d x² y²`
form a group under one addition formula: its denominators never vanish.

Exchanging the coordinates, up to a square root of minus one, is the addition of a point of order
four. It carries the first coordinate of a sum to the second, so associativity is computed for the
first coordinate only.

## Main definitions

* `TwistedEdwards` — the curve, and `TwistedEdwards.Point` its points.
* `TwistedEdwards.rotate` — the exchange of the coordinates.

## Main results

* `TwistedEdwards.one_add_ne_zero`, `TwistedEdwards.one_sub_ne_zero` — the denominators.
* `TwistedEdwards.add_assoc` — the law that makes `TwistedEdwards.Point` a group.
-/

namespace TezosWallet

/-- The curve `-x² + y² = 1 + d x² y²` over a field where minus one is a square and `d` is not. -/
structure TwistedEdwards (F : Type*) [Field F] where
  d : F
  /-- A square root of minus one. -/
  root : F
  root_sq : root ^ 2 = -1
  not_isSquare : ¬ IsSquare d
  two_ne_zero : (2 : F) ≠ 0

namespace TwistedEdwards

variable {F : Type*} [Field F]

/-- A point of the curve. -/
@[ext]
structure Point (E : TwistedEdwards F) where
  x : F
  y : F
  mem : y ^ 2 - x ^ 2 = 1 + E.d * x ^ 2 * y ^ 2

variable {E : TwistedEdwards F}

instance : Zero E.Point := ⟨⟨0, 1, by ring⟩⟩

instance : Neg E.Point := ⟨fun P => ⟨-P.x, P.y, by rw [neg_sq, P.mem]⟩⟩

@[simp] theorem zero_x : (0 : E.Point).x = 0 := rfl

@[simp] theorem zero_y : (0 : E.Point).y = 1 := rfl

@[simp] theorem neg_x (P : E.Point) : (-P).x = -P.x := rfl

@[simp] theorem neg_y (P : E.Point) : (-P).y = P.y := rfl

/-! ### Denominators -/

section Denominators

/-- The product in the denominators of a sum. -/
def product (P Q : E.Point) : F := E.d * P.x * Q.x * P.y * Q.y

variable (P Q : E.Point)

theorem product_comm : product P Q = product Q P := by
  simp only [product]
  ring

theorem product_neg : product P (-Q) = -product P Q := by
  simp only [product, neg_x, neg_y]
  ring

theorem isSquare_of_mul_sq {d a b : F} (ha : a ≠ 0) (h : d * a ^ 2 = b ^ 2) : IsSquare d := by
  refine ⟨b / a, ?_⟩
  field_simp
  exact h

variable {P Q}

theorem mul_sq_eq (he : product P Q ^ 2 = 1) :
    E.d * (P.x * P.y * (E.root * Q.x + Q.y)) ^ 2 = (E.root * P.x + product P Q * P.y) ^ 2 := by
  have h : E.d * P.x * Q.x * P.y * Q.y = product P Q := rfl
  linear_combination (E.d * P.x ^ 2 * P.y ^ 2 * Q.x ^ 2 - P.x ^ 2) * E.root_sq +
    E.d * P.x ^ 2 * P.y ^ 2 * Q.mem - P.mem + (1 - P.y ^ 2) * he +
    (E.d * P.x * Q.x * P.y * Q.y + product P Q + 2 * E.root * P.x * P.y) * h

/-- If the product is one or minus one, `d` is the quotient of two squares unless its divisor
vanishes. -/
theorem root_mul_add_eq_zero (he : product P Q ^ 2 = 1) (hx : P.x ≠ 0) (hy : P.y ≠ 0) :
    E.root * Q.x + Q.y = 0 := by
  by_contra h
  exact E.not_isSquare
    (isSquare_of_mul_sq (mul_ne_zero (mul_ne_zero hx hy) h) (mul_sq_eq he))

variable (P Q)

theorem product_sq_ne_one : product P Q ^ 2 ≠ 1 := by
  intro he
  have hne : E.d * P.x * Q.x * P.y * Q.y ≠ 0 := fun h0 => zero_ne_one <| by
    rw [product, h0] at he
    linear_combination he
  have hx : P.x ≠ 0 := fun h => hne (by rw [h]; ring)
  have hy : P.y ≠ 0 := fun h => hne (by rw [h]; ring)
  have hsum := root_mul_add_eq_zero he hx hy
  have hdiff := root_mul_add_eq_zero (by rw [product_neg, neg_sq, he]) hx hy
  rw [neg_x, neg_y] at hdiff
  -- the two divisors add up to twice the second coordinate
  have hQy : Q.y ≠ 0 := fun h => hne (by rw [h]; ring)
  exact mul_ne_zero E.two_ne_zero hQy (by linear_combination hsum + hdiff)

theorem one_add_ne_zero : 1 + product P Q ≠ 0 := fun h =>
  product_sq_ne_one P Q (by linear_combination (product P Q - 1) * h)

theorem one_sub_ne_zero : 1 - product P Q ≠ 0 := fun h =>
  product_sq_ne_one P Q (by linear_combination -(product P Q + 1) * h)

end Denominators

/-! ### Sums -/

section Sums

/-- The numerator of the first coordinate of a sum. -/
def crossed (P Q : E.Point) : F := P.x * Q.y + P.y * Q.x

/-- The numerator of the second coordinate of a sum. -/
def straight (P Q : E.Point) : F := P.y * Q.y + P.x * Q.x

variable (P Q R : E.Point)

theorem crossed_comm : crossed P Q = crossed Q P := by
  simp only [crossed]
  ring

theorem straight_comm : straight P Q = straight Q P := by
  simp only [straight]
  ring

theorem sum_mem : straight P Q ^ 2 * (1 + product P Q) ^ 2 -
    crossed P Q ^ 2 * (1 - product P Q) ^ 2 =
    ((1 + product P Q) * (1 - product P Q)) ^ 2 +
      E.d * crossed P Q ^ 2 * straight P Q ^ 2 := by
  have hP := P.mem
  have hQ := Q.mem
  simp only [product, crossed, straight]
  linear_combination
    ((Q.y ^ 2 - Q.x ^ 2) * (1 + E.d ^ 2 * P.x ^ 2 * P.y ^ 2 * Q.x ^ 2 * Q.y ^ 2) -
      E.d * Q.x ^ 2 * Q.y ^ 2 * (P.y ^ 2 - P.x ^ 2 + 1 + E.d * P.x ^ 2 * P.y ^ 2)) * hP +
    ((1 + E.d * P.x ^ 2 * P.y ^ 2) * (1 + E.d ^ 2 * P.x ^ 2 * P.y ^ 2 * Q.x ^ 2 * Q.y ^ 2) -
      E.d * P.x ^ 2 * P.y ^ 2 * (Q.y ^ 2 - Q.x ^ 2 + 1 + E.d * Q.x ^ 2 * Q.y ^ 2)) * hQ

instance : Add E.Point where
  add P Q :=
    { x := crossed P Q / (1 + product P Q)
      y := straight P Q / (1 - product P Q)
      mem := by
        have hadd := one_add_ne_zero P Q
        have hsub := one_sub_ne_zero P Q
        field_simp
        linear_combination sum_mem P Q }

theorem add_x : (P + Q).x = crossed P Q / (1 + product P Q) := rfl

theorem add_y : (P + Q).y = straight P Q / (1 - product P Q) := rfl

theorem add_x_mul : (P + Q).x * (1 + product P Q) = crossed P Q :=
  div_mul_cancel₀ _ (one_add_ne_zero P Q)

theorem add_y_mul : (P + Q).y * (1 - product P Q) = straight P Q :=
  div_mul_cancel₀ _ (one_sub_ne_zero P Q)

protected theorem add_comm : P + Q = Q + P := by
  ext
  · rw [add_x, add_x, crossed_comm, product_comm]
  · rw [add_y, add_y, straight_comm, product_comm]

protected theorem zero_add : 0 + P = P := by
  ext
  · simp [add_x, crossed, product]
  · simp [add_y, straight, product]

protected theorem neg_add_cancel : -P + P = 0 := by
  have hne := one_sub_ne_zero (-P) P
  ext
  · simp [add_x, crossed, mul_comm]
  · rw [add_y, div_eq_iff hne]
    simp only [straight, product, neg_x, neg_y, zero_y]
    linear_combination P.mem

/-! ### Associativity -/

/-- The exchange of the coordinates. -/
def rotate : E.Point where
  x := E.root * P.y
  y := E.root * P.x
  mem := by linear_combination (P.x ^ 2 - P.y ^ 2 -
    E.d * P.x ^ 2 * P.y ^ 2 * (E.root ^ 2 - 1)) * E.root_sq + P.mem

@[simp] theorem rotate_x : (rotate P).x = E.root * P.y := rfl

@[simp] theorem rotate_y : (rotate P).y = E.root * P.x := rfl

theorem rotate_add : rotate (P + Q) = rotate P + Q := by
  have hproduct : product (rotate P) Q = -product P Q := by
    simp only [product, rotate_x, rotate_y]
    linear_combination E.d * P.x * P.y * Q.x * Q.y * E.root_sq
  ext
  · rw [add_x, hproduct, ← sub_eq_add_neg, rotate_x, add_y, ← mul_div_assoc]
    simp only [crossed, straight, rotate_x, rotate_y]
    congr 1
    ring
  · rw [add_y, hproduct, sub_neg_eq_add, rotate_y, add_x, ← mul_div_assoc]
    simp only [crossed, straight, rotate_x, rotate_y]
    congr 1
    ring

theorem y_eq : P.y = -(E.root * (rotate P).x) := by
  rw [rotate_x]
  linear_combination P.y * E.root_sq

/-- The denominator of a sum whose first operand is a sum, without inner fractions. -/
theorem outer_denominator :
    (1 + product P Q) * (1 - product P Q) + E.d * crossed P Q * straight P Q * R.x * R.y =
      (1 + product P Q) * (1 - product P Q) * (1 + product (P + Q) R) := by
  rw [← add_x_mul, ← add_y_mul, product.eq_def (P + Q) R]
  ring

/-- The first coordinate of a sum whose first operand is a sum, without inner fractions. -/
theorem add_add_x : (P + Q + R).x =
    (crossed P Q * (1 - product P Q) * R.y + straight P Q * (1 + product P Q) * R.x) /
      ((1 + product P Q) * (1 - product P Q) +
        E.d * crossed P Q * straight P Q * R.x * R.y) := by
  have hadd := one_add_ne_zero P Q
  have hsub := one_sub_ne_zero P Q
  rw [outer_denominator, ← add_x_mul, ← add_y_mul, add_x, crossed.eq_def (P + Q) R,
    ← mul_div_mul_left _ _ (mul_ne_zero hadd hsub)]
  congr 1
  ring

theorem outer_denominator_ne_zero : (1 + product P Q) * (1 - product P Q) +
    E.d * crossed P Q * straight P Q * R.x * R.y ≠ 0 := by
  rw [outer_denominator]
  exact mul_ne_zero (mul_ne_zero (one_add_ne_zero P Q) (one_sub_ne_zero P Q))
    (one_add_ne_zero _ _)

theorem add_assoc_x : (P + Q + R).x = (P + (Q + R)).x := by
  rw [TwistedEdwards.add_comm P (Q + R), add_add_x, add_add_x,
    div_eq_div_iff (outer_denominator_ne_zero P Q R) (outer_denominator_ne_zero Q R P)]
  obtain ⟨x₁, y₁, h₁⟩ := P
  obtain ⟨x₂, y₂, h₂⟩ := Q
  obtain ⟨x₃, y₃, h₃⟩ := R
  simp only [crossed, straight, product]
  linear_combination -E.d * x₂ * y₂ *
    ((x₃ * y₃ * (y₁ * (x₂ * y₃ + y₂ * x₃) - x₁ * (y₂ * y₃ + x₂ * x₃)) - (y₃ ^ 2 - x₃ ^ 2 - 1) *
        x₂ * y₂ * (x₁ * (y₂ * y₃ + x₂ * x₃) + y₁ * (x₂ * y₃ + y₂ * x₃))) * h₁ +
      E.d * x₁ * y₁ * x₃ * y₃ * (x₁ * y₁ * (x₁ * (y₂ * y₃ + x₂ * x₃) -
        y₁ * (x₂ * y₃ + y₂ * x₃)) + x₃ * y₃ * (y₃ * (x₁ * y₂ + y₁ * x₂) -
        x₃ * (y₁ * y₂ + x₁ * x₂))) * h₂ +
      ((y₁ ^ 2 - x₁ ^ 2 - 1) * x₂ * y₂ * (x₃ * (y₁ * y₂ + x₁ * x₂) + y₃ * (x₁ * y₂ + y₁ * x₂)) +
        x₁ * y₁ * (x₃ * (y₁ * y₂ + x₁ * x₂) - y₃ * (x₁ * y₂ + y₁ * x₂))) * h₃)

protected theorem add_assoc : P + Q + R = P + (Q + R) := by
  ext
  · exact add_assoc_x P Q R
  · rw [y_eq, y_eq (P + (Q + R)), rotate_add, rotate_add, rotate_add, add_assoc_x]

end Sums

instance : AddCommGroup E.Point where
  add_assoc := TwistedEdwards.add_assoc
  zero_add := TwistedEdwards.zero_add
  add_zero P := by rw [TwistedEdwards.add_comm, TwistedEdwards.zero_add]
  nsmul := nsmulRec
  zsmul := zsmulRec
  neg_add_cancel := TwistedEdwards.neg_add_cancel
  add_comm := TwistedEdwards.add_comm

end TwistedEdwards

end TezosWallet
