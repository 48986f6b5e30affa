import Mathlib.AlgebraicGeometry.EllipticCurve.Affine.Point
import Mathlib.Tactic.LinearCombination

/-!
# One addition formula for all points

On a curve `y² = x³ + a x + b` over a field, a polynomial formula in projective coordinates adds
two points. What it gives are coordinates of the sum up to a factor, whatever the points are. The
factor vanishes only if the difference of the points has order two, so the formula has no
exceptions among points that generate a group of odd order.

## Main definitions

* `shortWeierstrass` — the curve.
* `Triple.sum` — the formula.
* `Triple.ofPoint` — the coordinates of a point.

## Main results

* `Triple.sum_ofPoint` — the formula gives the coordinates of the sum up to a factor.
-/

namespace TezosWallet

variable {F : Type*} [Field F]

/-- The curve `y² = x³ + a x + b`. -/
def shortWeierstrass (a b : F) : WeierstrassCurve.Affine F where
  a₁ := 0
  a₂ := 0
  a₃ := 0
  a₄ := a
  a₆ := b

namespace shortWeierstrass

open WeierstrassCurve.Affine

variable {a b x y x₁ y₁ x₂ y₂ : F}

theorem negY_eq : (shortWeierstrass a b).negY x y = -y := by
  simp [negY, shortWeierstrass]

theorem equation_iff : (shortWeierstrass a b).Equation x y ↔ b = y ^ 2 - x ^ 3 - a * x := by
  rw [WeierstrassCurve.Affine.equation_iff]
  simp only [shortWeierstrass]
  constructor <;> intro h <;> linear_combination -h

theorem nonsingular_iff : (shortWeierstrass a b).Nonsingular x y ↔
    b = y ^ 2 - x ^ 3 - a * x ∧ (3 * x ^ 2 + a ≠ 0 ∨ y ≠ -y) := by
  rw [WeierstrassCurve.Affine.nonsingular_iff, equation_iff]
  simp [shortWeierstrass, eq_comm]

theorem some_eq_neg_iff (hchar : (2 : F) ≠ 0) (h : (shortWeierstrass a b).Nonsingular x y) :
    Point.some x y h = -Point.some x y h ↔ y = 0 := by
  rw [Point.neg_some, Point.some.injEq, negY_eq, eq_neg_iff_add_eq_zero, ← two_mul]
  simp [hchar]

variable [DecidableEq F]

/-- The slope of the line through two points that are not opposite, or of the tangent if they are
equal, satisfies two polynomial equations. -/
theorem slope_equations (h₁ : (shortWeierstrass a b).Equation x₁ y₁)
    (h₂ : (shortWeierstrass a b).Equation x₂ y₂)
    (hxy : ¬ (x₁ = x₂ ∧ y₁ = (shortWeierstrass a b).negY x₂ y₂)) :
    ∃ l, (shortWeierstrass a b).slope x₁ x₂ y₁ y₂ = l ∧ y₂ = y₁ - l * (x₁ - x₂) ∧
      a = l * (y₁ + y₂) - (x₁ ^ 2 + x₁ * x₂ + x₂ ^ 2) := by
  have hb₁ := equation_iff.mp h₁
  have hb₂ := equation_iff.mp h₂
  refine ⟨_, rfl, ?_⟩
  by_cases hx : x₁ = x₂
  · subst hx
    have hne : y₁ ≠ (shortWeierstrass a b).negY x₁ y₂ := fun h => hxy ⟨rfl, h⟩
    obtain rfl := Y_eq_of_Y_ne h₁ h₂ rfl hne
    rw [slope_of_Y_ne rfl hne]
    rw [negY_eq] at hne ⊢
    have h2 : y₁ + y₁ ≠ 0 := fun h => hne (eq_neg_of_add_eq_zero_left h)
    simp only [shortWeierstrass, sub_neg_eq_add]
    constructor
    · ring
    · rw [div_mul_cancel₀ _ h2]
      ring
  · have hd : x₁ - x₂ ≠ 0 := sub_ne_zero.mpr hx
    rw [slope_of_X_ne hx]
    constructor
    · field_simp
      ring
    · field_simp
      linear_combination hb₁ - hb₂

/-- The sum of two points that are not opposite, by the slope of the line through them. -/
theorem exists_add_some (h₁ : (shortWeierstrass a b).Nonsingular x₁ y₁)
    (h₂ : (shortWeierstrass a b).Nonsingular x₂ y₂) (hxy : ¬ (x₁ = x₂ ∧ y₁ = -y₂)) :
    ∃ l, y₂ = y₁ - l * (x₁ - x₂) ∧ a = l * (y₁ + y₂) - (x₁ ^ 2 + x₁ * x₂ + x₂ ^ 2) ∧
      ∃ h, Point.some x₁ y₁ h₁ + Point.some x₂ y₂ h₂ =
        Point.some (l ^ 2 - x₁ - x₂) (-(l * (l ^ 2 - x₁ - x₂ - x₁) + y₁)) h := by
  have hnot : ¬ (x₁ = x₂ ∧ y₁ = (shortWeierstrass a b).negY x₂ y₂) := by rwa [negY_eq]
  obtain ⟨l, hl, hy, ha⟩ := slope_equations h₁.left h₂.left hnot
  refine ⟨l, hy, ha, ?_⟩
  have hX : (shortWeierstrass a b).addX x₁ x₂ l = l ^ 2 - x₁ - x₂ := by
    simp [addX, shortWeierstrass]
  have hY : (shortWeierstrass a b).addY x₁ x₂ y₁ l = -(l * (l ^ 2 - x₁ - x₂ - x₁) + y₁) := by
    rw [addY, negY_eq, negAddY, hX]
  rw [Point.add_some hnot, ← hY, ← hX, ← hl]
  exact ⟨_, rfl⟩

end shortWeierstrass

/-! ### The formula -/

/-- Projective coordinates. -/
@[ext]
structure Triple (F : Type*) where
  (x y z : F)

namespace Triple

/-- All coordinates by a factor. -/
def scale (s : F) (P : Triple F) : Triple F := ⟨s * P.x, s * P.y, s * P.z⟩

/-- The sum of two points of the curve with coefficients `a` and `b`. -/
def sum (a b : F) (P Q : Triple F) : Triple F :=
  let low := a * (P.x * Q.z + P.z * Q.x) + 3 * b * (P.z * Q.z)
  let slope := 3 * (P.x * Q.x) + a * (P.z * Q.z)
  let high := a * (P.x * Q.x) + 3 * b * (P.x * Q.z + P.z * Q.x) - a * a * (P.z * Q.z)
  ⟨(P.x * Q.y + P.y * Q.x) * (P.y * Q.y - low) - (P.y * Q.z + P.z * Q.y) * high,
    slope * high + (P.y * Q.y + low) * (P.y * Q.y - low),
    (P.y * Q.z + P.z * Q.y) * (P.y * Q.y + low) + (P.x * Q.y + P.y * Q.x) * slope⟩

variable {a b x y x₁ y₁ x₂ y₂ l : F}

theorem scale_scale (s t : F) (P : Triple F) : (P.scale t).scale s = P.scale (s * t) := by
  simp only [scale, mul_assoc]

theorem sum_comm (P Q : Triple F) : sum a b P Q = sum a b Q P := by
  ext <;> simp only [sum] <;> ring

theorem sum_scale (s t : F) (P Q : Triple F) :
    sum a b (P.scale s) (Q.scale t) = (sum a b P Q).scale ((s * t) ^ 2) := by
  ext <;> simp only [sum, scale] <;> ring

theorem sum_neutral : sum a b ⟨0, 1, 0⟩ ⟨x, y, 1⟩ = scale y ⟨x, y, 1⟩ := by
  ext <;> simp only [sum, scale] <;> ring

/-- Where the points are opposite, only the second coordinate remains. -/
theorem sum_opposite (hb : b = y ^ 2 - x ^ 3 - a * x) :
    sum a b ⟨x, y, 1⟩ ⟨x, -y, 1⟩ =
      scale (-((3 * x ^ 2 + a) ^ 3 - 12 * x * y ^ 2 * (3 * x ^ 2 + a) + 8 * y ^ 4)) ⟨0, 1, 0⟩ := by
  subst hb
  ext <;> simp only [sum, scale] <;> ring

section Chord

variable (hy : y₂ = y₁ - l * (x₁ - x₂)) (ha : a = l * (y₁ + y₂) - (x₁ ^ 2 + x₁ * x₂ + x₂ ^ 2))
  (hb : b = y₁ ^ 2 - x₁ ^ 3 - a * x₁)

include hy ha hb

/-- Elsewhere the formula gives the third point of the line, mirrored. -/
theorem sum_chord : sum a b ⟨x₁, y₁, 1⟩ ⟨x₂, y₂, 1⟩ =
    scale ((y₁ + y₂) ^ 3 - (2 * x₁ + x₂) * (y₁ + y₂) * (x₁ - x₂) ^ 2 + y₁ * (x₁ - x₂) ^ 3)
      ⟨l ^ 2 - x₁ - x₂, -(l * (l ^ 2 - x₁ - x₂ - x₁) + y₁), 1⟩ := by
  subst hb ha hy
  ext <;> simp only [sum, scale] <;> ring

end Chord

/-! ### The formula on points -/

open WeierstrassCurve.Affine shortWeierstrass

/-- The coordinates of a point, with `z = 1` unless it is the neutral one. -/
def ofPoint : (shortWeierstrass a b).Point → Triple F
  | .zero => ⟨0, 1, 0⟩
  | .some x y _ => ⟨x, y, 1⟩

variable [DecidableEq F]

theorem addOrderOf_some_eq_two (hchar : (2 : F) ≠ 0) {h : (shortWeierstrass a b).Nonsingular x y}
    (hy : y = 0) : addOrderOf (Point.some x y h) = 2 := by
  have hneg := (some_eq_neg_iff hchar h).mpr hy
  refine addOrderOf_eq_prime ?_ (Point.some_ne_zero h)
  rw [two_nsmul, ← eq_neg_iff_add_eq_zero]
  exact hneg

/-- The factor of two opposite points vanishes only if their difference has order two. -/
theorem sum_some_neg (hchar : (2 : F) ≠ 0) (h : (shortWeierstrass a b).Nonsingular x y) :
    ∃ c, sum a b ⟨x, y, 1⟩ ⟨x, -y, 1⟩ = scale c ⟨0, 1, 0⟩ ∧
      (c = 0 → addOrderOf (Point.some x y h + Point.some x y h) = 2) := by
  refine ⟨_, sum_opposite (nonsingular_iff.mp h).1, fun hzero => ?_⟩
  have hy : y ≠ 0 := by
    rintro rfl
    have hslope : 3 * x ^ 2 + a ≠ 0 := (nonsingular_iff.mp h).2.resolve_right (by simp)
    exact pow_ne_zero 3 hslope (by linear_combination -hzero)
  have h2y : 2 * y ≠ 0 := mul_ne_zero hchar hy
  obtain ⟨l, -, ha, hsum, hadd⟩ := exists_add_some h h
    fun hxy => h2y (by linear_combination hxy.2)
  rw [hadd]
  refine addOrderOf_some_eq_two hchar ?_
  -- the factor is `(2 y) ^ 3` times the second coordinate of the double
  have hslope : 3 * x ^ 2 + a = l * (2 * y) := by linear_combination ha
  rw [hslope] at hzero
  refine (mul_eq_zero.mp ?_).resolve_left (pow_ne_zero 3 h2y)
  linear_combination hzero

/-- The factor of two points that are not opposite vanishes only if their difference has order
two. -/
theorem sum_some_some (hchar : (2 : F) ≠ 0) (h₁ : (shortWeierstrass a b).Nonsingular x₁ y₁)
    (h₂ : (shortWeierstrass a b).Nonsingular x₂ y₂) (hxy : ¬ (x₁ = x₂ ∧ y₁ = -y₂)) :
    ∃ c, sum a b ⟨x₁, y₁, 1⟩ ⟨x₂, y₂, 1⟩ =
        scale c (ofPoint (Point.some x₁ y₁ h₁ + Point.some x₂ y₂ h₂)) ∧
      (c = 0 → addOrderOf (Point.some x₁ y₁ h₁ - Point.some x₂ y₂ h₂) = 2) := by
  obtain ⟨l, hy, ha, hsum, hadd⟩ := exists_add_some h₁ h₂ hxy
  rw [hadd]
  refine ⟨_, sum_chord hy ha (nonsingular_iff.mp h₁).1, fun hzero => ?_⟩
  by_cases hx : x₁ = x₂
  · subst hx
    obtain rfl : y₂ = y₁ := by linear_combination hy
    refine absurd ?_ (fun h0 : y₂ + y₂ = 0 => hxy ⟨rfl, by linear_combination h0⟩)
    exact pow_eq_zero_iff three_ne_zero |>.mp (by linear_combination hzero)
  · -- the factor is the cube of `x₁ - x₂` times the second coordinate of the difference
    have h₂' : (shortWeierstrass a b).Nonsingular x₂ (-y₂) := by
      rw [← negY_eq (a := a) (b := b) (x := x₂)]
      exact (nonsingular_neg _ _).mpr h₂
    obtain ⟨m, hm, -, hsub, hdiff⟩ := exists_add_some h₁ h₂' (fun h => hx h.1)
    have hneg : -Point.some x₂ y₂ h₂ = Point.some x₂ (-y₂) h₂' := by
      simp only [Point.neg_some, negY_eq]
    rw [sub_eq_add_neg, hneg, hdiff]
    refine addOrderOf_some_eq_two hchar ?_
    have hslope : y₁ + y₂ = m * (x₁ - x₂) := by linear_combination -hm
    rw [hslope] at hzero
    refine (mul_eq_zero.mp ?_).resolve_left (pow_ne_zero 3 (sub_ne_zero.mpr hx))
    linear_combination -hzero

/-- The formula gives the coordinates of the sum up to a factor, which vanishes only if the
difference of the two points has order two. -/
theorem sum_ofPoint (hchar : (2 : F) ≠ 0) (A B : (shortWeierstrass a b).Point) :
    ∃ c, sum a b (ofPoint A) (ofPoint B) = scale c (ofPoint (A + B)) ∧
      (c = 0 → addOrderOf (A - B) = 2) := by
  match A, B with
  | .zero, .zero => exact ⟨1, by simp [ofPoint, sum, scale, ← Point.zero_def], by simp⟩
  | .zero, .some x y h =>
    refine ⟨y, ?_, fun hy => ?_⟩
    · rw [← Point.zero_def, zero_add]
      exact sum_neutral
    · rw [← Point.zero_def, zero_sub, addOrderOf_neg]
      exact addOrderOf_some_eq_two hchar hy
  | .some x y h, .zero =>
    refine ⟨y, ?_, fun hy => ?_⟩
    · rw [← Point.zero_def, add_zero, sum_comm]
      exact sum_neutral
    · rw [← Point.zero_def, sub_zero]
      exact addOrderOf_some_eq_two hchar hy
  | .some x₁ y₁ h₁, .some x₂ y₂ h₂ =>
    by_cases hxy : x₁ = x₂ ∧ y₁ = -y₂
    · obtain ⟨rfl, rfl⟩ := hxy
      have hneg : Point.some x₁ (-y₂) h₁ = -Point.some x₁ y₂ h₂ := by
        simp only [Point.neg_some, negY_eq]
      obtain ⟨c, hsum, hc⟩ := sum_some_neg hchar h₁
      refine ⟨c, ?_, fun h0 => ?_⟩
      · have hcancel : Point.some x₁ (-y₂) h₁ + Point.some x₁ y₂ h₂ = 0 := by
          rw [hneg, neg_add_cancel]
        rw [neg_neg] at hsum
        rw [hcancel]
        exact hsum
      · rw [← hc h0, hneg, sub_eq_add_neg]
    · exact sum_some_some hchar h₁ h₂ hxy

end Triple

end TezosWallet
