import TezosWallet.Bytes
import TezosWallet.Arithmetic

/-!
# Curves of prime order in short Weierstrass form

Points of `y² = x³ + a x + b` modulo a prime, in projective coordinates. On a curve of odd order
one addition formula serves all pairs of points, doubling and the neutral point included. A point
is written as its `x` coordinate after a byte that gives the parity of `y`. Reading also takes both
coordinates, and the compact form, which leaves `y` to a convention of the curve.

## Main definitions

* `ShortCurve` — the parameters of a curve; `secp256k1` and `p256` are the two in use.
* `CompactForm` — the conventions for `y` in the compact form.
* `ShortCurve.add`, `ShortCurve.smul` — the group operations.
* `ShortCurve.encode`, `ShortCurve.decode?` — written points.
-/

namespace TezosWallet

/-- Two opposite points share their first coordinate. The compact form of a point writes only that
coordinate and stands for one of the two. -/
inductive CompactForm
  /-- The point whose second coordinate is even. -/
  | even
  /-- The point whose second coordinate is the smaller. -/
  | smaller
  deriving DecidableEq, Repr

/-- The parameters of a curve whose group has prime order. -/
structure ShortCurve where
  /-- The field modulus, which leaves the remainder three on division by four. -/
  p : Nat
  /-- The coefficient of `x`. -/
  a : Int
  /-- The constant coefficient. -/
  b : Int
  /-- The base point's first coordinate. -/
  baseX : Int
  /-- The base point's second coordinate. -/
  baseY : Int
  /-- The order of the group. -/
  order : Nat
  /-- The point that a compact form stands for. -/
  compact : CompactForm

namespace ShortCurve

/-- The curve of `tz2` accounts. -/
def secp256k1 : ShortCurve where
  p := 0xfffffffffffffffffffffffffffffffffffffffffffffffffffffffefffffc2f
  a := 0
  b := 7
  baseX := 0x79be667ef9dcbbac55a06295ce870b07029bfcdb2dce28d959f2815b16f81798
  baseY := 0x483ada7726a3c4655da4fbfc0e1108a8fd17b448a68554199c47d08ffb10d4b8
  order := 0xfffffffffffffffffffffffffffffffebaaedce6af48a03bbfd25e8cd0364141
  compact := .even

/-- The curve of `tz3` accounts. -/
def p256 : ShortCurve where
  p := 0xffffffff00000001000000000000000000000000ffffffffffffffffffffffff
  a := -3
  b := 0x5ac635d8aa3a93e7b3ebbd55769886bc651d06b0cc53b0f63bce3c3e27d2604b
  baseX := 0x6b17d1f2e12c4247f8bce6e563a440f277037d812deb33a0f4a13945d898c296
  baseY := 0x4fe342e2fe1a7f9b8ee7eb4a7c0f9e162bce33576b315ececbb6406837bf51f5
  order := 0xffffffff00000000ffffffffffffffffbce6faada7179e84f3b9cac2fc632551
  compact := .smaller

/-- A point in projective coordinates `x / z`, `y / z`; the neutral point has `z = 0`. -/
structure Point where
  (x y z : Int)

variable (C : ShortCurve)

/-- The neutral point. -/
def neutral : Point := ⟨0, 1, 0⟩

/-- The base point. -/
def base : Point := ⟨C.baseX, C.baseY, 1⟩

/-- The sum of two points. -/
def add (P Q : Point) : Point :=
  let xx := P.x * Q.x % C.p
  let yy := P.y * Q.y % C.p
  let zz := P.z * Q.z % C.p
  let xy := (P.x * Q.y + P.y * Q.x) % C.p
  let xz := (P.x * Q.z + P.z * Q.x) % C.p
  let yz := (P.y * Q.z + P.z * Q.y) % C.p
  let low := (C.a * xz + 3 * C.b * zz) % C.p
  let slope := (3 * xx + C.a * zz) % C.p
  let high := (C.a * xx + 3 * C.b * xz - C.a * C.a * zz) % C.p
  ⟨(xy * (yy - low) - yz * high) % C.p,
    (slope * high + (yy + low) * (yy - low)) % C.p,
    (yz * (yy + low) + xy * slope) % C.p⟩

/-- The multiple of a point by a number of at most `bits` bits. -/
def smul (P : Point) : (bits n : Nat) → Point
  | 0, _ => neutral
  | bits + 1, n =>
    let half := smul P bits (n / 2)
    let double := C.add half half
    if n % 2 = 1 then C.add double P else double

/-- The affine coordinates of a point other than the neutral one. -/
def affine? (P : Point) : Option (Nat × Nat) :=
  if P.z % C.p = 0 then none
  else
    let zInv := Modular.inv C.p P.z
    some ((P.x * zInv % C.p).toNat, (P.y * zInv % C.p).toNat)

/-- The written form of a point with the given affine coordinates. -/
def encode (point : Nat × Nat) : Bytes :=
  UInt8.ofNat (2 + point.2 % 2) :: Bytes.ofNatBE 32 point.1

/-- The right-hand side of the curve equation. -/
def cubic (x : Int) : Int := (x * x % C.p * x + C.a * x + C.b) % C.p

/-- The point with a given first coordinate and parity of the second, if the curve has one. -/
def lift? (x parity : Nat) : Option Point :=
  let square := C.cubic x
  let y := Modular.pow C.p square 256 ((C.p + 1) / 4)
  if x < C.p ∧ y * y % C.p = square then
    some ⟨x, if y % 2 = parity then y else -y % C.p, 1⟩
  else none

/-- The point that a first coordinate alone stands for, if the curve has one. -/
def liftCompact? (x : Nat) : Option Point := do
  let P ← C.lift? x 0
  let opposite := -P.y % C.p
  match C.compact with
  | .even => pure P
  | .smaller => pure (if P.y ≤ opposite then P else { P with y := opposite })

/-- The point of a written form: the first coordinate after `02` or `03`, both after `04`, or the
first alone after `05`. -/
def decode? (bytes : Bytes) : Option Point :=
  match bytes with
  | [] => none
  | tag :: coordinates =>
    if coordinates.length = 32 ∧ (tag = 2 ∨ tag = 3) then
      C.lift? (Bytes.toNatBE coordinates) (tag.toNat - 2)
    else if coordinates.length = 32 ∧ tag = 5 then C.liftCompact? (Bytes.toNatBE coordinates)
    else if coordinates.length = 64 ∧ tag = 4 then
      let x := Bytes.toNatBE (coordinates.take 32)
      let y := Bytes.toNatBE (coordinates.drop 32)
      if x < C.p ∧ y < C.p ∧ (y * y % C.p : Int) = C.cubic x then some ⟨x, y, 1⟩ else none
    else none

end ShortCurve

end TezosWallet
