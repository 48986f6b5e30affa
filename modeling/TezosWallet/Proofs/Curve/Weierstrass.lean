import TezosWallet.Curve.Weierstrass
import TezosWallet.Proofs.Bytes
import TezosWallet.Proofs.Curve.Projective
import TezosWallet.Proofs.Modular
import TezosWallet.Proofs.Modular.Prime

/-!
# The group of a curve in short Weierstrass form

The coordinates of a computed point stand for an element of the curve's group over the prime
field. Sums and multiples of computed points stand for sums and multiples of those elements, and a
written point that is read stands for the element that was written.

## Main definitions

* `ShortCurve.IsStandard` — what the parameters of a curve in use satisfy.
* `ShortCurve.Represents` — the element that computed coordinates stand for.

## Main results

* `ShortCurve.represents_smul`, `ShortCurve.represents_add` — multiples of the base point and
  their sums.
* `ShortCurve.affine?_eq` — the affine coordinates of what is represented.
* `ShortCurve.exists_decode?_encode` — a written point is read back.
-/

namespace TezosWallet.ShortCurve

/-- The parameters of a curve over a prime field, with a base point of odd prime order. -/
class IsStandard (C : ShortCurve) : Prop where
  prime : C.p.Prime
  p_mod_four : C.p % 4 = 3
  p_lt : C.p < 2 ^ 256
  base_mem : C.baseY * C.baseY % C.p = C.cubic C.baseX
  two_baseY_ne : 2 * C.baseY % C.p ≠ 0
  order_prime : C.order.Prime
  two_lt_order : 2 < C.order
  order_lt : C.order < 2 ^ 256
  /-- With the next field: the order times the base point is computed as the neutral point, in
  coordinates that do not all vanish. -/
  smul_order_z : (C.smul C.base 256 C.order).z % C.p = 0
  smul_order_y : (C.smul C.base 256 C.order).y % C.p ≠ 0

/-- Both primes come from the chain; the rest is computed. -/
theorem IsStandard.of_chain {C : ShortCurve}
    (hp : Modular.curveChain.any (·.number == C.p) = true)
    (horder : Modular.curveChain.any (·.number == C.order) = true)
    (h : (C.p % 4 = 3 ∧ C.p < 2 ^ 256 ∧ 2 < C.order ∧ C.order < 2 ^ 256) ∧
      (C.baseY * C.baseY % C.p = C.cubic C.baseX ∧ 2 * C.baseY % C.p ≠ 0) ∧
      (C.smul C.base 256 C.order).z % C.p = 0 ∧ (C.smul C.base 256 C.order).y % C.p ≠ 0) :
    IsStandard C := by
  obtain ⟨⟨hmod, hlt, htwo, hltOrder⟩, ⟨hbase, hbaseY⟩, hz, hy⟩ := h
  exact ⟨Modular.prime_of_mem_curveChain hp, hmod, hlt, hbase, hbaseY,
    Modular.prime_of_mem_curveChain horder, htwo, hltOrder, hz, hy⟩

instance : IsStandard secp256k1 :=
  .of_chain (by decide +kernel) (by decide +kernel) (by decide +kernel)

instance : IsStandard p256 :=
  .of_chain (by decide +kernel) (by decide +kernel) (by decide +kernel)

variable (C : ShortCurve) [IsStandard C]

instance : Fact C.p.Prime := ⟨IsStandard.prime⟩

instance : Fact C.order.Prime := ⟨IsStandard.order_prime⟩

/-- The field of the coordinates. -/
abbrev Coordinate : Type := ZMod C.p

/-- The group of the curve. -/
abbrev Element : Type := (shortWeierstrass (C.a : C.Coordinate) (C.b : C.Coordinate)).Point

/-! ### Computed points -/

/-- The coordinates of a computed point in the field. -/
def residue (P : Point) : Triple C.Coordinate := ⟨P.x, P.y, P.z⟩

/-- The coordinates of a computed point are those of an element, up to a factor. -/
def Represents (P : Point) (A : C.Element) : Prop :=
  ∃ s ≠ 0, C.residue P = (Triple.ofPoint A).scale s

theorem odd_p : C.p % 2 = 1 := by
  have := IsStandard.p_mod_four (C := C)
  omega

theorem two_lt_p : 2 < C.p := by
  have := IsStandard.p_mod_four (C := C)
  omega

theorem two_ne_zero : (2 : C.Coordinate) ≠ 0 := by
  refine Ring.two_ne_zero ?_
  rw [ZMod.ringChar_zmod_n]
  have := C.odd_p
  omega

theorem residue_add (P Q : Point) : C.residue (C.add P Q) =
    (C.residue P).sum (C.a : C.Coordinate) (C.b : C.Coordinate) (C.residue Q) := by
  simp only [residue, add, Triple.sum, Modular.cast_emod, Int.cast_add, Int.cast_sub, Int.cast_mul,
    Int.cast_ofNat]

/-- The sum of two computed points has the coordinates of the sum up to a factor, which vanishes
only if the difference of the elements has order two. -/
theorem exists_residue_add {P Q : Point} {A B : C.Element} {s t : C.Coordinate}
    (hP : C.residue P = (Triple.ofPoint A).scale s)
    (hQ : C.residue Q = (Triple.ofPoint B).scale t) :
    ∃ r, C.residue (C.add P Q) = (Triple.ofPoint (A + B)).scale r ∧
      (r = 0 → s = 0 ∨ t = 0 ∨ addOrderOf (A - B) = 2) := by
  obtain ⟨c, hsum, hc⟩ := Triple.sum_ofPoint (C.two_ne_zero) A B
  refine ⟨(s * t) ^ 2 * c, ?_, fun hr => ?_⟩
  · rw [residue_add, hP, hQ, Triple.sum_scale, hsum, Triple.scale_scale]
  · rcases mul_eq_zero.mp hr with hst | hzero
    · rcases mul_eq_zero.mp (pow_eq_zero_iff (by decide) |>.mp hst) with hs | ht
      · exact .inl hs
      · exact .inr (.inl ht)
    · exact .inr (.inr (hc hzero))

/-- Repeated doubling gives the coordinates of the multiple up to a factor, which vanishes only if
some multiple has order two. -/
theorem exists_residue_smul {P : Point} {A : C.Element} (h : C.Represents P A) {bits n : Nat}
    (hn : n < 2 ^ bits) :
    ∃ s, C.residue (C.smul P bits n) = (Triple.ofPoint (n • A)).scale s ∧
      (s = 0 → ∃ T ∈ AddSubgroup.zmultiples A, addOrderOf T = 2) := by
  obtain ⟨t, ht, hP⟩ := h
  induction bits generalizing n with
  | zero =>
    obtain rfl : n = 0 := by omega
    refine ⟨1, ?_, fun h => absurd h one_ne_zero⟩
    rw [zero_nsmul]
    simp [smul, residue, neutral, Triple.ofPoint, Triple.scale]
  | succ bits ih =>
    obtain ⟨s, hhalf, hs⟩ := ih (n := n / 2) (by rw [Nat.pow_succ] at hn; omega)
    obtain ⟨r, hdouble, hr⟩ := C.exists_residue_add hhalf hhalf
    have hr' : r = 0 → ∃ T ∈ AddSubgroup.zmultiples A, addOrderOf T = 2 := fun h0 => by
      rcases hr h0 with h | h | h
      · exact hs h
      · exact hs h
      · rw [sub_self, addOrderOf_zero] at h
        cases h
    rw [← add_nsmul] at hdouble
    rw [smul]
    split
    · next hodd =>
      obtain ⟨c, hsum, hc⟩ := C.exists_residue_add hdouble hP
      rw [← succ_nsmul, show n / 2 + n / 2 + 1 = n by omega] at hsum
      refine ⟨c, hsum, fun h0 => ?_⟩
      rcases hc h0 with h | h | h
      · exact hr' h
      · exact absurd h ht
      · exact ⟨_, sub_mem (AddSubgroup.nsmul_mem_zmultiples A _) (AddSubgroup.mem_zmultiples A), h⟩
    · next heven =>
      rw [show n / 2 + n / 2 = n by omega] at hdouble
      exact ⟨r, hdouble, hr'⟩

/-! ### The group of the base point -/

theorem nonsingular_base : (shortWeierstrass (C.a : C.Coordinate) (C.b : C.Coordinate)).Nonsingular
    (C.baseX : C.Coordinate) (C.baseY : C.Coordinate) := by
  rw [shortWeierstrass.nonsingular_iff]
  constructor
  · have := congrArg (Int.cast : Int → C.Coordinate) (IsStandard.base_mem (C := C))
    simp only [cubic, Modular.cast_emod, Int.cast_add, Int.cast_mul] at this
    linear_combination -this
  · right
    intro h
    have htwo := IsStandard.two_baseY_ne (C := C)
    refine htwo (Modular.cast_eq_zero_iff.mp ?_)
    push_cast
    linear_combination h

/-- The element that the base point stands for. -/
def generator : C.Element := .some _ _ C.nonsingular_base

theorem represents_base : C.Represents C.base C.generator :=
  ⟨1, one_ne_zero, by simp [residue, base, generator, Triple.ofPoint, Triple.scale]⟩

theorem order_nsmul_generator : C.order • C.generator = 0 := by
  obtain ⟨s, hs, -⟩ := C.exists_residue_smul C.represents_base (IsStandard.order_lt (C := C))
  have hz : (C.residue (C.smul C.base 256 C.order)).z = 0 :=
    Modular.cast_eq_zero_iff.mpr IsStandard.smul_order_z
  have hy : (C.residue (C.smul C.base 256 C.order)).y ≠ 0 :=
    fun h => IsStandard.smul_order_y (Modular.cast_eq_zero_iff.mp h)
  rw [hs] at hz hy
  generalize C.order • C.generator = A at hz hy
  match A with
  | .zero => rfl
  | .some x y h =>
    have hzero : s * 1 = 0 := hz
    rw [mul_one] at hzero
    exact absurd (by rw [hzero]; exact zero_mul y) hy

theorem addOrderOf_generator : addOrderOf C.generator = C.order :=
  addOrderOf_eq_prime C.order_nsmul_generator (WeierstrassCurve.Affine.Point.some_ne_zero _)

variable {C}

theorem addOrderOf_ne_two {T : C.Element} (hT : T ∈ AddSubgroup.zmultiples C.generator) :
    addOrderOf T ≠ 2 := by
  intro htwo
  have hdvd := addOrderOf_dvd_of_mem_zmultiples hT
  rw [htwo, addOrderOf_generator, Nat.prime_dvd_prime_iff_eq Nat.prime_two IsStandard.order_prime]
    at hdvd
  exact IsStandard.two_lt_order.ne hdvd

theorem represents_add {P Q : Point} {A B : C.Element} (hP : C.Represents P A)
    (hQ : C.Represents Q B) (hA : A ∈ AddSubgroup.zmultiples C.generator)
    (hB : B ∈ AddSubgroup.zmultiples C.generator) : C.Represents (C.add P Q) (A + B) := by
  obtain ⟨s, hs, hP⟩ := hP
  obtain ⟨t, ht, hQ⟩ := hQ
  obtain ⟨r, hsum, hr⟩ := C.exists_residue_add hP hQ
  refine ⟨r, fun h0 => ?_, hsum⟩
  rcases hr h0 with h | h | h
  · exact hs h
  · exact ht h
  · exact addOrderOf_ne_two (sub_mem hA hB) h

theorem represents_smul {P : Point} {A : C.Element} (hP : C.Represents P A)
    (hA : A ∈ AddSubgroup.zmultiples C.generator) {bits n : Nat} (hn : n < 2 ^ bits) :
    C.Represents (C.smul P bits n) (n • A) := by
  obtain ⟨s, hsmul, hs⟩ := C.exists_residue_smul hP hn
  refine ⟨s, fun h0 => ?_, hsmul⟩
  obtain ⟨T, hT, htwo⟩ := hs h0
  exact addOrderOf_ne_two (AddSubgroup.zmultiples_le_of_mem hA hT) htwo

/-! ### Affine coordinates -/

/-- The affine coordinates of an element as numbers below the modulus. -/
def coordinates : C.Element → Option (Nat × Nat)
  | .zero => none
  | .some x y _ => some (x.val, y.val)

theorem affine?_eq {P : Point} {A : C.Element} (h : C.Represents P A) :
    C.affine? P = coordinates A := by
  obtain ⟨s, hs, hP⟩ := h
  have hz : (P.z : C.Coordinate) = s * (Triple.ofPoint A).z := congrArg Triple.z hP
  have hx : (P.x : C.Coordinate) = s * (Triple.ofPoint A).x := congrArg Triple.x hP
  have hy : (P.y : C.Coordinate) = s * (Triple.ofPoint A).y := congrArg Triple.y hP
  rw [affine?]
  match A with
  | .zero =>
    have hzero : P.z % C.p = 0 := Modular.cast_eq_zero_iff.mp (hz.trans (mul_zero s))
    rw [if_pos hzero, coordinates]
  | .some x y h =>
    simp only [Triple.ofPoint, mul_one] at hx hy hz
    have hnot : ¬ P.z % C.p = 0 := fun h0 => hs (hz ▸ Modular.cast_eq_zero_iff.mpr h0)
    have hinv : (Modular.inv C.p P.z : C.Coordinate) = s⁻¹ := by
      rw [Modular.cast_inv C.two_lt_p IsStandard.p_lt, hz]
    rw [if_neg hnot]
    simp only [Modular.toNat_emod, Int.cast_mul, hx, hy, hinv, mul_inv_cancel_right₀ hs,
      mul_comm s, coordinates]

/-- Opposite elements share the first coordinate. -/
theorem map_fst_coordinates_neg (A : C.Element) :
    (coordinates (-A)).map Prod.fst = (coordinates A).map Prod.fst := by
  match A with
  | .zero => rfl
  | .some x y h => rfl

/-! ### Written points -/

variable {x y : C.Coordinate}

theorem cast_cubic (x : Int) :
    (C.cubic x : C.Coordinate) = (x : C.Coordinate) ^ 3 + C.a * x + C.b := by
  simp only [cubic, Modular.cast_emod, Int.cast_add, Int.cast_mul]
  ring

/-- The power that reading a point takes is a square root. -/
theorem root_sq {square : Int} (h : (square : C.Coordinate) = y ^ 2) :
    (Modular.pow C.p square 256 ((C.p + 1) / 4) : C.Coordinate) ^ 2 = y ^ 2 := by
  have hmod := IsStandard.p_mod_four (C := C)
  have hlt := IsStandard.p_lt (C := C)
  rw [Modular.cast_pow (by omega), h, ← pow_mul, ← pow_mul]
  by_cases hy : y = 0
  · rw [hy, zero_pow (by omega), zero_pow (by omega)]
  · have hfermat : y ^ (C.p - 1) = 1 := ZMod.pow_card_sub_one_eq_one hy
    rw [show 2 * ((C.p + 1) / 4 * 2) = C.p - 1 + 2 by omega, pow_add, hfermat, one_mul]

/-- The first coordinate of a point and the parity of the second give the point back. -/
theorem exists_lift?_eq
    (h : (shortWeierstrass (C.a : C.Coordinate) (C.b : C.Coordinate)).Nonsingular x y) :
    ∃ P, C.lift? x.val (y.val % 2) = some P ∧ C.Represents P (.some x y h) := by
  have hx : ((x.val : Int) : C.Coordinate) = x := by
    rw [Int.cast_natCast, ZMod.natCast_zmod_val]
  have hsquare : (C.cubic x.val : C.Coordinate) = y ^ 2 := by
    rw [cast_cubic, hx]
    linear_combination (shortWeierstrass.nonsingular_iff.mp h).1
  have hroot := root_sq hsquare
  have hreduced := Modular.pow_emod C.p (C.cubic x.val) 256 ((C.p + 1) / 4)
  rw [lift?]
  set r := Modular.pow C.p (C.cubic x.val) 256 ((C.p + 1) / 4)
  have hcheck : r * r % C.p = C.cubic x.val := by
    refine Modular.eq_of_cast_eq (Int.emod_emod_of_dvd _ (dvd_refl _))
      (Int.emod_emod_of_dvd _ (dvd_refl _)) ?_
    rw [Modular.cast_emod, Int.cast_mul, ← sq, hroot, hsquare]
  refine ⟨_, if_pos ⟨x.val_lt, hcheck⟩, 1, one_ne_zero, ?_⟩
  have hparity := Modular.cast_of_parity C.odd_p hreduced hroot
  have hy : ((if r % 2 = (y.val % 2 : Nat) then r else -r % C.p : Int) : C.Coordinate) = y := by
    split
    · next h => exact hparity.1 h
    · next h => exact hparity.2 h
  simp only [residue, Triple.ofPoint, Triple.scale, one_mul, hx, hy, Int.cast_one]

/-- The written form of an element's coordinates is read as that element. -/
theorem exists_decode?_encode {A : C.Element} {point : Nat × Nat}
    (h : coordinates A = some point) :
    ∃ P, C.decode? (encode point) = some P ∧ C.Represents P A := by
  match A with
  | .some x y hxy =>
    obtain ⟨P, hlift, hP⟩ := exists_lift?_eq hxy
    refine ⟨P, ?_, hP⟩
    obtain rfl : (x.val, y.val) = point := Option.some.inj h
    have hx : Bytes.toNatBE (Bytes.ofNatBE 32 x.val) = x.val := by
      have hsize : C.p < 256 ^ 32 := IsStandard.p_lt
      rw [Bytes.toNatBE_ofNatBE, Nat.mod_eq_of_lt (x.val_lt.trans hsize)]
    have hparity : (UInt8.ofNat (2 + y.val % 2)).toNat - 2 = y.val % 2 := by
      rw [Bytes.toNat_byte (by omega)]
      omega
    have htag : UInt8.ofNat (2 + y.val % 2) = 2 ∨ UInt8.ofNat (2 + y.val % 2) = 3 := by
      rcases Nat.mod_two_eq_zero_or_one y.val with h | h <;> rw [h]
      · exact .inl rfl
      · exact .inr rfl
    rw [encode, decode?, if_pos ⟨Bytes.length_ofNatBE _ _, htag⟩, hx, hparity, hlift]

end TezosWallet.ShortCurve
