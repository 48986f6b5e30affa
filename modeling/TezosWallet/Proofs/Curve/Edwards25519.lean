import Mathlib.NumberTheory.LegendreSymbol.Basic
import TezosWallet.Curve.Edwards25519
import TezosWallet.Proofs.Bytes
import TezosWallet.Proofs.Curve.Edwards
import TezosWallet.Proofs.Modular
import TezosWallet.Proofs.Modular.Prime

/-!
# What Ed25519 signs it accepts

Computed points stand for points of the twisted Edwards curve over the prime field, so that sums
and multiples are computed in its group. A written point that is read stands for the same point.
With these, the equation that verification checks is the one that signing solves.

## Main definitions

* `Edwards25519.curve` — the curve over the prime field.
* `Edwards25519.Represents` — the point that computed coordinates stand for.
* `Edwards25519.code` — the written form of a point.

## Main results

* `Edwards25519.represents_add`, `Edwards25519.represents_smul` — sums and multiples.
* `Edwards25519.order_nsmul_generator` — the order of the base point.
* `Edwards25519.exists_decode?_code` — a written point is read back.
* `Edwards25519.verify_sign` — signatures are accepted.
-/

namespace TezosWallet.Edwards25519

/-! ### The curve -/

instance : Fact p.Prime := ⟨Modular.prime_of_mem_curveChain (by decide +kernel)⟩

theorem p_mod_eight : p % 8 = 5 := by decide +kernel

theorem p_lt : p < 2 ^ 255 := by decide +kernel

theorem two_lt_p : 2 < p := by decide +kernel

/-- Two integers with equal remainders have the same residue. -/
theorem cast_eq {m n : Int} (h : m % p = n % p) : (m : ZMod p) = n :=
  (ZMod.intCast_eq_intCast_iff' m n p).mpr h

theorem two_ne_zero : (2 : ZMod p) ≠ 0 := by
  refine Ring.two_ne_zero ?_
  rw [ZMod.ringChar_zmod_n]
  exact two_lt_p.ne'

/-- Euler's criterion shows that the curve constant is no square. -/
theorem not_isSquare_d : ¬ IsSquare (d : ZMod p) := by
  have hne : (d : ZMod p) ≠ 0 := fun h =>
    absurd (Modular.cast_eq_zero_iff.mp h) (by decide +kernel)
  rw [ZMod.euler_criterion p hne, ← Modular.cast_pow (Nat.lt_of_le_of_lt (Nat.div_le_self p 2)
    (p_lt.trans (by decide) : p < 2 ^ 256)), ← Int.cast_one, ZMod.intCast_eq_intCast_iff']
  decide +kernel

/-- The curve over the prime field. -/
def curve : TwistedEdwards (ZMod p) where
  d := d
  root := rootMinusOne
  root_sq := by
    rw [← Int.cast_pow, ← Int.cast_one, ← Int.cast_neg]
    exact cast_eq (by decide +kernel)
  not_isSquare := not_isSquare_d
  two_ne_zero := two_ne_zero

/-- The group of the curve. -/
abbrev Element : Type := curve.Point

/-! ### Computed points -/

/-- The coordinates of a computed point are those of a point of the curve, up to a factor. -/
def Represents (P : Point) (A : Element) : Prop :=
  ∃ s : ZMod p, s ≠ 0 ∧ (P.x : ZMod p) = s * A.x ∧ (P.y : ZMod p) = s * A.y ∧
    (P.z : ZMod p) = s ∧ (P.t : ZMod p) = s * (A.x * A.y)

variable {P Q : Point} {A B : Element}

theorem represents_neutral : Represents neutral 0 :=
  ⟨1, one_ne_zero, by simp [neutral], by simp [neutral], by simp [neutral], by simp [neutral]⟩

theorem represents_add (hP : Represents P A) (hQ : Represents Q B) :
    Represents (add P Q) (A + B) := by
  obtain ⟨s, hs, hPx, hPy, hPz, hPt⟩ := hP
  obtain ⟨t, ht, hQx, hQy, hQz, hQt⟩ := hQ
  have hplus := TwistedEdwards.one_add_ne_zero A B
  have hminus := TwistedEdwards.one_sub_ne_zero A B
  refine ⟨(2 * s * t) ^ 2 * ((1 + TwistedEdwards.product A B) * (1 - TwistedEdwards.product A B)),
    mul_ne_zero (pow_ne_zero 2 (mul_ne_zero (mul_ne_zero two_ne_zero hs) ht))
      (mul_ne_zero hplus hminus), ?_, ?_, ?_, ?_⟩
  all_goals
    simp only [add, Modular.cast_emod, Int.cast_mul, Int.cast_sub, Int.cast_add, Int.cast_ofNat,
      hPx, hPy, hPz, hPt, hQx, hQy, hQz, hQt, TwistedEdwards.add_x, TwistedEdwards.add_y]
    field_simp
    simp only [TwistedEdwards.crossed, TwistedEdwards.straight, TwistedEdwards.product, curve]
    ring

theorem represents_neg (hP : Represents P A) : Represents (neg P) (-A) := by
  obtain ⟨s, hs, hx, hy, hz, ht⟩ := hP
  refine ⟨s, hs, ?_, hy, hz, ?_⟩
  · rw [neg, Modular.cast_emod, Int.cast_neg, hx, TwistedEdwards.neg_x, mul_neg]
  · rw [neg, Modular.cast_emod, Int.cast_neg, ht, TwistedEdwards.neg_x, TwistedEdwards.neg_y,
      neg_mul, mul_neg]

theorem represents_smul (hP : Represents P A) {bits n : Nat} (hn : n < 2 ^ bits) :
    Represents (smul P bits n) (n • A) := by
  induction bits generalizing n with
  | zero =>
    obtain rfl : n = 0 := by omega
    rw [zero_nsmul]
    exact represents_neutral
  | succ bits ih =>
    have hhalf := ih (n := n / 2) (by rw [Nat.pow_succ] at hn; omega)
    have hdouble := represents_add hhalf hhalf
    rw [← add_nsmul] at hdouble
    rw [smul]
    split
    · next hodd =>
      have hsum := represents_add hdouble hP
      rwa [← succ_nsmul, show n / 2 + n / 2 + 1 = n by omega] at hsum
    · next heven => rwa [show n / 2 + n / 2 = n by omega] at hdouble

/-! ### The group of the base point -/

/-- The point that the base point's coordinates stand for. -/
def generator : Element where
  x := base.x
  y := base.y
  mem := by
    have h : base.y ^ 2 - base.x ^ 2 ≡ 1 + d * base.x ^ 2 * base.y ^ 2 [ZMOD p] := by
      decide +kernel
    have hcast := cast_eq h
    push_cast at hcast
    exact hcast

theorem represents_base : Represents base generator := by
  refine ⟨1, one_ne_zero, (one_mul _).symm, (one_mul _).symm, Int.cast_one, ?_⟩
  have h : base.t = base.x * base.y % p := rfl
  rw [h, Modular.cast_emod, Int.cast_mul, one_mul, generator]

theorem order_lt : order < 2 ^ 253 := by decide +kernel

theorem order_nsmul_generator : order • generator = 0 := by
  have hlt : order < 2 ^ 256 := order_lt.trans (by decide)
  have hx0 : ((smul base 256 order).x : ZMod p) = 0 :=
    Modular.cast_eq_zero_iff.mpr (by decide +kernel)
  have hyz : ((smul base 256 order).y : ZMod p) = (smul base 256 order).z :=
    cast_eq (by decide +kernel)
  obtain ⟨s, hs, hx, hy, hz, -⟩ := represents_smul represents_base hlt
  ext
  · rw [hx0] at hx
    exact (mul_eq_zero.mp hx.symm).resolve_left hs
  · rw [hy, hz] at hyz
    exact mul_left_cancel₀ hs (hyz.trans (mul_one s).symm)

theorem nsmul_generator_mod (n : Nat) : (n % order) • generator = n • generator := by
  conv_rhs => rw [← Nat.div_add_mod n order, add_nsmul, mul_nsmul, order_nsmul_generator,
    nsmul_zero, zero_add]

/-! ### Written points -/

/-- The written form of a point: the second coordinate with the parity of the first on top. -/
def code (A : Element) : FixedBytes 32 where
  toBytes := Bytes.ofNatLE 32 (A.y.val + A.x.val % 2 * Nat.pow 2 255)
  length_toBytes := Bytes.length_ofNatLE _ _

theorem encode_eq (h : Represents P A) : encode P = code A := by
  obtain ⟨s, hs, hx, hy, hz, -⟩ := h
  have hinv : (Modular.inv p P.z : ZMod p) = s⁻¹ := by
    rw [Modular.cast_inv two_lt_p (p_lt.trans (by decide)), hz]
  ext1
  simp only [encode, code, Modular.toNat_emod, Int.cast_mul, hx, hy, hinv, mul_comm s,
    mul_inv_cancel_right₀ hs]

/-- The even one of a reduced integer and its opposite. -/
def evenOf (r : Int) : Int := if r % 2 = 0 then r else -r % p

/-- The root that reading a point tries first. -/
def firstRoot (u v : Int) : Int :=
  let v3 := v * v % p * v % p
  let v7 := v3 * v3 % p * v % p
  u * v3 % p * Modular.pow p (u * v7 % p) 256 ((p - 5) / 8) % p

theorem sqrtRatio?_eq (u v : Int) : sqrtRatio? u v =
    if v * firstRoot u v % p * firstRoot u v % p = u % p then some (evenOf (firstRoot u v))
    else if v * firstRoot u v % p * firstRoot u v % p = -u % p then
      some (evenOf (firstRoot u v * rootMinusOne % p))
    else none := rfl

theorem neg_emod_eq {r : Int} (hr : r % p = r) (hne : r ≠ 0) : -r % p = p - r := by
  have hpos : (0 : Int) < p := by exact_mod_cast two_lt_p.le.trans_lt' (by decide)
  have hnonneg := Int.emod_nonneg r hpos.ne'
  have hlt := Int.emod_lt_of_pos r hpos
  rw [← Int.add_emod_right, Int.emod_eq_of_lt (by omega) (by omega)]
  omega

theorem evenOf_spec {r : Int} (hr : r % p = r) :
    evenOf r % p = evenOf r ∧ evenOf r % 2 = 0 ∧ (evenOf r : ZMod p) ^ 2 = (r : ZMod p) ^ 2 := by
  have hp := p_mod_eight
  rw [evenOf]
  split
  · next heven => exact ⟨hr, heven, rfl⟩
  · next hodd =>
    refine ⟨Int.emod_emod_of_dvd _ (dvd_refl _), ?_, ?_⟩
    · rw [neg_emod_eq hr (by omega)]
      omega
    · rw [Modular.cast_emod, Int.cast_neg, neg_sq]

theorem firstRoot_emod (u v : Int) : firstRoot u v % p = firstRoot u v :=
  Int.emod_emod_of_dvd _ (dvd_refl _)

variable {u v : Int} {x : ZMod p}

theorem cast_firstRoot : (firstRoot u v : ZMod p) =
    u * (v : ZMod p) ^ 3 * (u * (v : ZMod p) ^ 7) ^ ((p - 5) / 8) := by
  have hsize : (p - 5) / 8 < 2 ^ 256 := by
    have := p_lt
    omega
  simp only [firstRoot, Modular.cast_emod, Int.cast_mul, Modular.cast_pow hsize]
  ring

/-- The first root is right up to a square root of minus one. -/
theorem firstRoot_sq (hv : (v : ZMod p) ≠ 0) (hu : (u : ZMod p) = v * x ^ 2) :
    (firstRoot u v : ZMod p) ^ 2 = x ^ 2 ∨ (firstRoot u v : ZMod p) ^ 2 = -x ^ 2 := by
  have hp := p_mod_eight
  have hexp : 2 * (2 * ((p - 5) / 8) + 1) = p / 2 := by omega
  have hpow : (firstRoot u v : ZMod p) ^ 2 = x ^ 2 * (x * v ^ 4) ^ (p / 2) := by
    rw [cast_firstRoot, hu, ← hexp]
    generalize (p - 5) / 8 = e
    ring
  rw [hpow]
  by_cases hx : x = 0
  · exact .inl (by rw [hx, zero_pow (by decide), zero_mul])
  · rcases ZMod.pow_div_two_eq_neg_one_or_one p (mul_ne_zero hx (pow_ne_zero 4 hv)) with h | h
    · exact .inl (by rw [h, mul_one])
    · exact .inr (by rw [h, mul_neg_one])

/-- A ratio that is a square has an even root. -/
theorem exists_sqrtRatio?_eq (hv : (v : ZMod p) ≠ 0) (hu : (u : ZMod p) = v * x ^ 2) :
    ∃ r, sqrtRatio? u v = some r ∧ r % p = r ∧ r % 2 = 0 ∧ (r : ZMod p) ^ 2 = x ^ 2 := by
  have hcheck (w : Int) : v * firstRoot u v % p * firstRoot u v % p = w % p ↔
      (v : ZMod p) * (firstRoot u v : ZMod p) ^ 2 = w := by
    rw [← ZMod.intCast_eq_intCast_iff', Int.cast_mul, Modular.cast_emod, Int.cast_mul, mul_assoc,
      ← sq]
  rw [sqrtRatio?_eq]
  simp only [hcheck, Int.cast_neg, hu, ← mul_neg, mul_right_inj' hv]
  split
  · next h =>
    obtain ⟨hreduced, heven, hsq⟩ := evenOf_spec (firstRoot_emod u v)
    exact ⟨_, rfl, hreduced, heven, hsq.trans h⟩
  · next hnot =>
    have h := (firstRoot_sq hv hu).resolve_left hnot
    have hroot : (rootMinusOne : ZMod p) ^ 2 = -1 := curve.root_sq
    obtain ⟨hreduced, heven, hsq⟩ := evenOf_spec (r := firstRoot u v * rootMinusOne % p)
      (Int.emod_emod_of_dvd _ (dvd_refl _))
    refine ⟨_, if_pos h, hreduced, heven, hsq.trans ?_⟩
    rw [Modular.cast_emod, Int.cast_mul, mul_pow, hroot, h]
    ring

/-- An even root and the parity of a residue give the residue back. -/
theorem cast_even_root {r : Int} (hr : r % p = r) (heven : r % 2 = 0)
    (hsq : (r : ZMod p) ^ 2 = x ^ 2) :
    ((if x.val % 2 = 1 then -r % p else r : Int) : ZMod p) = x := by
  have hodd : p % 2 = 1 := by
    have := p_mod_eight
    omega
  have hparity := Modular.cast_of_parity hodd hr hsq
  split
  · next h => exact hparity.2 (by omega)
  · next h => exact hparity.1 (by omega)

theorem toNatLE_code (A : Element) :
    Bytes.toNatLE (code A).toBytes = A.y.val + A.x.val % 2 * Nat.pow 2 255 := by
  have hlt : A.y.val < 2 ^ 255 := A.y.val_lt.trans p_lt
  have hpow : Nat.pow 2 255 = 2 ^ 255 := rfl
  rw [code, Bytes.toNatLE_ofNatLE, Nat.mod_eq_of_lt]
  rw [hpow]
  omega

/-- The denominator under the root vanishes for no point of the curve. -/
theorem one_add_d_mul_sq_ne_zero (y : ZMod p) : d * y ^ 2 + 1 ≠ 0 := by
  intro h
  have hy : y ≠ 0 := by
    rintro rfl
    exact one_ne_zero (by linear_combination h)
  refine not_isSquare_d ⟨curve.root / y, ?_⟩
  have hroot := curve.root_sq
  field_simp
  linear_combination h - hroot

/-- What reading does once the second coordinate and the parity of the first are known. -/
theorem decode?_eq {bytes : FixedBytes 32} {y parity : Nat}
    (hlow : Bytes.toNatLE bytes.toBytes % Nat.pow 2 255 % p = y)
    (hhigh : Bytes.toNatLE bytes.toBytes / Nat.pow 2 255 = parity) :
    decode? bytes = match sqrtRatio? ((y * y : Int) % p - 1) (d * ((y * y : Int) % p) % p + 1) with
      | some r =>
        let x : Int := if parity = 1 then -r % p else r
        some ⟨x, y, 1, x * y % p⟩
      | none => none := by
  subst hlow hhigh
  rfl

/-- A written point is read as the point that was written. -/
theorem exists_decode?_code (A : Element) :
    ∃ P, decode? (code A) = some P ∧ Represents P A := by
  have hlt : A.y.val < Nat.pow 2 255 := A.y.val_lt.trans p_lt
  have hlow : Bytes.toNatLE (code A).toBytes % Nat.pow 2 255 % p = A.y.val := by
    rw [toNatLE_code, Nat.add_mul_mod_self_right, Nat.mod_eq_of_lt hlt, Nat.mod_eq_of_lt A.y.val_lt]
  have hhigh : Bytes.toNatLE (code A).toBytes / Nat.pow 2 255 = A.x.val % 2 := by
    rw [toNatLE_code, Nat.add_mul_div_right _ _ (by decide), Nat.div_eq_of_lt hlt, zero_add]
  have hy : ((A.y.val : Int) : ZMod p) = A.y := by
    rw [Int.cast_natCast, ZMod.natCast_zmod_val]
  rw [decode?_eq hlow hhigh]
  generalize hyy : (A.y.val : Int) * A.y.val % p = yy
  have hyy' : (yy : ZMod p) = A.y ^ 2 := by
    rw [← hyy, Modular.cast_emod, Int.cast_mul, hy, ← sq]
  have hv : ((d * yy % p + 1 : Int) : ZMod p) = d * A.y ^ 2 + 1 := by
    rw [Int.cast_add, Modular.cast_emod, Int.cast_mul, hyy', Int.cast_one]
  have hu : ((yy - 1 : Int) : ZMod p) = ((d * yy % p + 1 : Int) : ZMod p) * A.x ^ 2 := by
    rw [hv, Int.cast_sub, hyy', Int.cast_one]
    have hmem : A.y ^ 2 - A.x ^ 2 = 1 + d * A.x ^ 2 * A.y ^ 2 := A.mem
    linear_combination hmem
  obtain ⟨r, hsqrt, hr, heven, hsq⟩ :=
    exists_sqrtRatio?_eq (hv ▸ one_add_d_mul_sq_ne_zero A.y) hu
  rw [hsqrt]
  have hx := cast_even_root hr heven hsq
  refine ⟨_, rfl, 1, one_ne_zero, ?_, ?_, Int.cast_one, ?_⟩
  · rw [hx, one_mul]
  · rw [hy, one_mul]
  · rw [Modular.cast_emod, Int.cast_mul, hx, hy, one_mul]

/-! ### Signatures -/

theorem scalarOf_lt (message : Bytes) : scalarOf message < 2 ^ 256 :=
  (Nat.mod_lt _ (by decide +kernel)).trans (order_lt.trans (by decide))

theorem secretScalar_lt (seed : FixedBytes 32) : secretScalar seed < 2 ^ 256 := by
  have hpow : Nat.pow 2 254 = 2 ^ 254 := rfl
  rw [secretScalar, hpow]
  omega

theorem encode_smul_base {n : Nat} (hn : n < 2 ^ 256) :
    encode (smul base 256 n) = code (n • generator) :=
  encode_eq (represents_smul represents_base hn)

theorem publicKey_eq (seed : FixedBytes 32) :
    publicKey seed = code (secretScalar seed • generator) :=
  encode_smul_base (secretScalar_lt seed)

/-- The number under which a message is signed with a seed. -/
def nonce (seed : FixedBytes 32) (message : Bytes) : Nat :=
  scalarOf ((Sha512.digest seed.toBytes).toBytes.drop 32 ++ message)

/-- The number that ties a signature to its message and to the public key. -/
def challenge (R : Bytes) (key : FixedBytes 32) (message : Bytes) : Nat :=
  scalarOf (R ++ key.toBytes ++ message)

/-- The point of a signature in its written form. -/
def commitment (seed : FixedBytes 32) (message : Bytes) : FixedBytes 32 :=
  encode (smul base 256 (nonce seed message))

/-- The number of a signature, before it is reduced. -/
def response (seed : FixedBytes 32) (message : Bytes) : Nat :=
  nonce seed message +
    challenge (commitment seed message).toBytes (publicKey seed) message * secretScalar seed

theorem toBytes_sign (seed : FixedBytes 32) (message : Bytes) :
    (sign seed message).toBytes = (commitment seed message).toBytes ++
      Bytes.ofNatLE 32 (response seed message % order) := rfl

theorem verify_eq (key : FixedBytes 32) (message : Bytes) (signature : FixedBytes 64) :
    verify key message signature = match decode? key with
      | some A =>
        Bytes.toNatLE (signature.toBytes.drop 32) < order &&
          (encode (add (smul base 256 (Bytes.toNatLE (signature.toBytes.drop 32)))
            (smul (neg A) 256 (challenge (signature.toBytes.take 32) key message)))).toBytes ==
              signature.toBytes.take 32
      | none => false := by
  rfl

/-- Under the public key of a seed, the signatures that the seed makes are right. -/
theorem verify_sign (seed : FixedBytes 32) (message : Bytes) :
    verify (publicKey seed) message (sign seed message) = true := by
  have hlt : response seed message % order < order := Nat.mod_lt _ (by decide +kernel)
  have hlt' : response seed message % order < 2 ^ 256 := hlt.trans (order_lt.trans (by decide))
  have hR : (sign seed message).toBytes.take 32 = (commitment seed message).toBytes := by
    rw [toBytes_sign]
    exact List.take_left' (commitment seed message).length_toBytes
  have hS :
      Bytes.toNatLE ((sign seed message).toBytes.drop 32) = response seed message % order := by
    rw [toBytes_sign, List.drop_left' (commitment seed message).length_toBytes,
      Bytes.toNatLE_ofNatLE]
    exact Nat.mod_eq_of_lt hlt'
  obtain ⟨A, hdecode, hA⟩ := exists_decode?_code (secretScalar seed • generator)
  rw [← publicKey_eq] at hdecode
  rw [verify_eq, hdecode, hR, hS]
  generalize hc : challenge (commitment seed message).toBytes (publicKey seed) message = c
  have hclt : c < 2 ^ 256 := hc ▸ scalarOf_lt _
  have hgroup : (response seed message % order) • generator +
      c • -(secretScalar seed • generator) = nonce seed message • generator := by
    rw [nsmul_generator_mod, response, hc, add_nsmul, mul_nsmul', smul_neg, add_neg_cancel_right]
  have hsum := represents_add (represents_smul represents_base hlt')
    (represents_smul (represents_neg hA) hclt)
  rw [hgroup] at hsum
  have hcommitment : commitment seed message = code (nonce seed message • generator) :=
    encode_smul_base (scalarOf_lt _)
  simp only [encode_eq hsum, hcommitment, hlt, decide_true, BEq.rfl, Bool.and_self]

end TezosWallet.Edwards25519
