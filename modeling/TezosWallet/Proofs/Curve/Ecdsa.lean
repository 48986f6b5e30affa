import TezosWallet.Curve.Ecdsa
import TezosWallet.Proofs.Curve.Weierstrass

/-!
# What ECDSA signs it accepts

A signature answers a digest by one linear equation in the nonce, the secret and its two numbers.
Verification accepts every pair that solves the equation. If a pair does, so does the other of its
two forms, with the opposite nonce.

## Main definitions

* `Ecdsa.Solves` — the equation.

## Main results

* `Ecdsa.solves_of_sign?`, `Ecdsa.Solves.lower` — signatures solve it, in both forms.
* `Ecdsa.verify_of_solves` — what solves it is accepted.
* `Ecdsa.exists_decode?_publicKeyOf` — the key that a signer publishes is read back.
* `Ecdsa.length_publicKeyOf` — its size.
-/

namespace TezosWallet.Ecdsa

open ShortCurve

variable {C : ShortCurve} {n : Nat} {digest : FixedBytes 32} {sig : Pair}

theorem inRange_iff {m : Nat} : inRange C m = true ↔ 0 < m ∧ m < C.order := by
  rw [inRange, Bool.and_eq_true, decide_eq_true_iff, decide_eq_true_iff]

variable [IsStandard C]

theorem cast_ne_zero {m : Nat} (h : inRange C m = true) : (m : ZMod C.order) ≠ 0 := by
  obtain ⟨hpos, hlt⟩ := inRange_iff.mp h
  rw [Ne, ZMod.natCast_eq_zero_iff]
  exact Nat.not_dvd_of_pos_of_lt hpos hlt

theorem lt_two_pow {m : Nat} (h : m < C.order) : m < 2 ^ 256 := h.trans IsStandard.order_lt

/-! ### Multiples of the base point -/

theorem nsmul_generator_eq {m k : Nat} (h : (m : ZMod C.order) = k) :
    m • C.generator = k • C.generator := by
  rw [nsmul_eq_nsmul_iff_modEq, addOrderOf_generator]
  exact (ZMod.natCast_eq_natCast_iff m k C.order).mp h

theorem represents_nsmul {m : Nat} (hm : m < C.order) :
    C.Represents (C.smul C.base 256 m) (m • C.generator) :=
  represents_smul C.represents_base (AddSubgroup.mem_zmultiples _) (lt_two_pow hm)

theorem exists_coordinates {m : Nat} (hm : inRange C m = true) :
    ∃ point, coordinates (m • C.generator) = some point := by
  match h : m • C.generator with
  | .some x y hxy => exact ⟨_, rfl⟩
  | .zero =>
    have hdvd := addOrderOf_dvd_of_nsmul_eq_zero h
    rw [addOrderOf_generator, ← ZMod.natCast_eq_zero_iff] at hdvd
    exact absurd hdvd (cast_ne_zero hm)

/-- A published key is the written form of the multiple of the base point by the secret. -/
theorem exists_publicKeyOf_eq (hn : inRange C n = true) :
    ∃ point, coordinates (n • C.generator) = some point ∧ publicKeyOf C n = encode point := by
  obtain ⟨point, hpoint⟩ := exists_coordinates hn
  have haffine := affine?_eq (represents_nsmul (inRange_iff.mp hn).2)
  refine ⟨point, hpoint, ?_⟩
  rw [publicKeyOf, haffine, hpoint]

/-- A published key is read as the multiple of the base point by the secret. -/
theorem exists_decode?_publicKeyOf (hn : inRange C n = true) :
    ∃ key, C.decode? (publicKeyOf C n) = some key ∧ C.Represents key (n • C.generator) := by
  obtain ⟨point, hpoint, hwritten⟩ := exists_publicKeyOf_eq hn
  rw [hwritten]
  exact exists_decode?_encode hpoint

/-- A published key is a parity byte and a coordinate of thirty-two bytes. -/
theorem length_publicKeyOf (hn : inRange C n = true) : (publicKeyOf C n).length = 33 := by
  obtain ⟨point, -, hwritten⟩ := exists_publicKeyOf_eq hn
  rw [hwritten, encode, List.length_cons, Bytes.length_ofNatBE]

/-! ### The signature equation -/

omit [IsStandard C] in
theorem nonce?_inRange {attempts : Nat} {g : Generator} {k : Nat}
    (h : g.nonce? C attempts = some k) : inRange C k = true := by
  induction attempts generalizing g with
  | zero => cases h
  | succ attempts ih =>
    rw [Generator.nonce?] at h
    split at h
    · next hrange =>
      cases h
      exact hrange
    · exact ih h

theorem cast_inv_order (m : Nat) :
    ((Modular.inv C.order m).toNat : ZMod C.order) = (m : ZMod C.order)⁻¹ := by
  have hreduced : Modular.inv C.order m % C.order = Modular.inv C.order m :=
    Modular.pow_emod _ _ _ _
  rw [← hreduced, Modular.toNat_emod, ZMod.natCast_zmod_val,
    Modular.cast_inv IsStandard.two_lt_order IsStandard.order_lt, Int.cast_natCast]

/-- Both numbers are in range, the first comes from a multiple of the base point by a nonce, and
the second times the nonce is the digest plus the first times the secret. -/
structure Solves (C : ShortCurve) [IsStandard C] (n : Nat) (digest : FixedBytes 32) (sig : Pair) :
    Prop where
  r_inRange : inRange C sig.r = true
  s_inRange : inRange C sig.s = true
  nonce : ∃ k x : Nat, k ≤ C.order ∧
    (coordinates (k • C.generator)).map Prod.fst = some x ∧ sig.r = x % C.order ∧
    ((sig.s : ZMod C.order) * k = Bytes.toNatBE digest.toBytes + sig.r * n)

theorem solves_of_sign? (h : sign? C n digest = some sig) : Solves C n digest sig := by
  simp only [sign?, Option.bind_eq_bind, Option.bind_eq_some_iff] at h
  obtain ⟨k, hk, ⟨x, y⟩, hpoint, h⟩ := h
  have hrange := nonce?_inRange hk
  rw [affine?_eq (represents_nsmul (inRange_iff.mp hrange).2)] at hpoint
  split at h
  · next hboth =>
    cases h
    obtain ⟨hr, hs⟩ := Bool.and_eq_true_iff.mp hboth
    refine ⟨hr, hs, k, x, (inRange_iff.mp hrange).2.le, by rw [hpoint]; rfl, rfl, ?_⟩
    simp only [ZMod.natCast_mod, Nat.cast_mul, Nat.cast_add, cast_inv_order]
    rw [mul_right_comm, inv_mul_cancel₀ (cast_ne_zero hrange), one_mul]
  · cases h

/-- The other form of a signature solves the equation with the opposite nonce. -/
theorem Solves.lower (h : Solves C n digest sig) : Solves C n digest (sig.lower C) := by
  rw [Pair.lower]
  split
  · exact h
  · obtain ⟨hr, hs, k, x, hk, hx, hrx, heq⟩ := h
    obtain ⟨hpos, hlt⟩ := inRange_iff.mp hs
    have hrange : inRange C (C.order - sig.s) = true := inRange_iff.mpr (by omega)
    refine ⟨hr, hrange, C.order - k, x, Nat.sub_le _ _, ?_, hrx, ?_⟩
    · rw [sub_nsmul _ hk, order_nsmul_generator, zero_add, map_fst_coordinates_neg, hx]
    · rw [← heq]
      push_cast [Nat.cast_sub hlt.le, Nat.cast_sub hk, ZMod.natCast_self]
      ring

theorem isLow_lower (h : Solves C n digest sig) : (sig.lower C).isLow C = true := by
  have hlt := (inRange_iff.mp h.s_inRange).2
  rw [Pair.lower]
  split
  · next hlow => exact hlow
  · next hhigh =>
    simp only [Pair.isLow, decide_eq_true_iff] at hhigh ⊢
    omega

/-- A point that stands for the secret's multiple of the base point accepts every solution. -/
theorem verify_of_solves {key : Point} (hkey : C.Represents key (n • C.generator))
    (h : Solves C n digest sig) : verify C key digest sig = true := by
  obtain ⟨hr, hs, k, x, hk, hx, hrx, heq⟩ := h
  have hs0 := cast_ne_zero hs
  have hpos : 0 < C.order := IsStandard.order_prime.pos
  -- generating the equation of `verify` for `rw` would evaluate the multiples
  unfold verify
  extract_lets sInv u v
  have hult : u < C.order := Nat.mod_lt _ hpos
  have hvlt : v < C.order := Nat.mod_lt _ hpos
  have hscalar : ((u + v * n : Nat) : ZMod C.order) = k := by
    simp only [u, v, sInv, Nat.cast_add, Nat.cast_mul, ZMod.natCast_mod, cast_inv_order]
    rw [mul_right_comm, ← add_mul, ← heq, mul_right_comm, mul_inv_cancel₀ hs0, one_mul]
  have hmem : n • C.generator ∈ AddSubgroup.zmultiples C.generator :=
    AddSubgroup.nsmul_mem_zmultiples _ n
  have hsum := represents_add (represents_nsmul hult)
    (represents_smul hkey hmem (lt_two_pow hvlt)) (AddSubgroup.nsmul_mem_zmultiples _ u)
    (nsmul_mem hmem v)
  rw [← mul_nsmul', ← add_nsmul, nsmul_generator_eq hscalar] at hsum
  rw [affine?_eq hsum]
  obtain ⟨point, hpoint, rfl⟩ := Option.map_eq_some_iff.mp hx
  rw [hpoint]
  exact beq_iff_eq.mpr hrx.symm

/-! ### Signatures as bytes -/

omit [IsStandard C] in
theorem ofBytes?_toBytes (hsize : C.order < 2 ^ 256) (hr : inRange C sig.r = true)
    (hs : inRange C sig.s = true) : Pair.ofBytes? C sig.toBytes = some sig := by
  have hbytes : sig.toBytes.toBytes = Bytes.ofNatBE 32 sig.r ++ Bytes.ofNatBE 32 sig.s := rfl
  have hread {m : Nat} (hm : inRange C m = true) : Bytes.toNatBE (Bytes.ofNatBE 32 m) = m := by
    have hlt : m < 256 ^ 32 := (inRange_iff.mp hm).2.trans hsize
    rw [Bytes.toNatBE_ofNatBE, Nat.mod_eq_of_lt hlt]
  rw [Pair.ofBytes?, hbytes, List.take_left' (Bytes.length_ofNatBE 32 _),
    List.drop_left' (Bytes.length_ofNatBE 32 _), hread hr, hread hs]
  simp only [hr, hs, Bool.and_self, if_true]

end TezosWallet.Ecdsa
