import TezosWallet.Hash.Sha512
import TezosWallet.Arithmetic

/-!
# Ed25519

Signatures on the twisted Edwards curve `-x² + y² = 1 + d x² y²` modulo `2 ^ 255 - 19`. A point is
written as its `y` coordinate with the parity of `x` in the top bit. Verification recomputes the
point that the signature begins with and compares the written forms, without clearing cofactors.

## Main definitions

* `Edwards25519.publicKey` — the public key of a seed.
* `Edwards25519.sign`, `Edwards25519.verify` — signatures of a message.
-/

namespace TezosWallet.Edwards25519

/-- The field modulus. -/
def p : Nat := Nat.pow 2 255 - 19

/-- The order of the base point. -/
def order : Nat := Nat.pow 2 252 + 27742317777372353535851937790883648493

/-- The curve constant, `-121665 / 121666`. -/
def d : Int := 37095705934669439343138083508754565189542113879843219016388785533085940283555

/-- A square root of minus one. -/
def rootMinusOne : Int :=
  19681161376707505956807079304988542015446066515923890162744021073123829784752

/-- A point in extended coordinates: `x / z`, `y / z`, with `x * y = z * t`. -/
structure Point where
  (x y z t : Int)

/-- The neutral point. -/
def neutral : Point := ⟨0, 1, 1, 0⟩

/-- The base point. -/
def base : Point :=
  let x := 15112221349535400772501151409588531511454012693041857206046113283949847762202
  let y := 46316835694926478169428394003475163141307993866256225615783033603165251855960
  ⟨x, y, 1, x * y % p⟩

/-- The sum of two points; the formula has no exceptions. -/
def add (P Q : Point) : Point :=
  let a := (P.y - P.x) * (Q.y - Q.x) % p
  let b := (P.y + P.x) * (Q.y + Q.x) % p
  let c := P.t * (2 * d) % p * Q.t % p
  let e := 2 * P.z * Q.z % p
  ⟨(b - a) * (e - c) % p, (e + c) * (b + a) % p, (e - c) * (e + c) % p, (b - a) * (b + a) % p⟩

/-- The negative of a point. -/
def neg (P : Point) : Point := ⟨-P.x % p, P.y, P.z, -P.t % p⟩

/-- The multiple of a point by a number of at most `bits` bits. -/
def smul (P : Point) : (bits n : Nat) → Point
  | 0, _ => neutral
  | bits + 1, n =>
    let half := smul P bits (n / 2)
    let double := add half half
    if n % 2 = 1 then add double P else double

/-- The written form of a point. -/
def encode (P : Point) : FixedBytes 32 where
  toBytes :=
    let zInv := Modular.inv p P.z
    let x := P.x * zInv % p
    let y := P.y * zInv % p
    Bytes.ofNatLE 32 (y.toNat + x.toNat % 2 * Nat.pow 2 255)
  length_toBytes := by simp

/-- The square root of `u / v` with an even representative, if there is one. -/
def sqrtRatio? (u v : Int) : Option Int :=
  let v3 := v * v % p * v % p
  let v7 := v3 * v3 % p * v % p
  let r := u * v3 % p * Modular.pow p (u * v7 % p) 256 ((p - 5) / 8) % p
  let check := v * r % p * r % p
  let even (r : Int) := if r % 2 = 0 then r else -r % p
  if check = u % p then some (even r)
  else if check = -u % p then some (even (r * rootMinusOne % p))
  else none

/-- The point of a written form. The `y` coordinate need not be reduced, and a zero `x` may carry
either parity. -/
def decode? (bytes : FixedBytes 32) : Option Point :=
  let n := Bytes.toNatLE bytes.toBytes
  let y : Int := (n % Nat.pow 2 255 % p : Nat)
  let yy := y * y % p
  match sqrtRatio? (yy - 1) (d * yy % p + 1) with
  | some x =>
    let x := if n / Nat.pow 2 255 = 1 then -x % p else x
    some ⟨x, y, 1, x * y % p⟩
  | none => none

/-- The number of a SHA-512 digest, modulo the group order. -/
def scalarOf (message : Bytes) : Nat := Bytes.toNatLE (Sha512.digest message).toBytes % order

/-- The secret scalar of a seed: half of its digest, with the low three bits and the top bit
cleared and the bit below the top one set. -/
def secretScalar (seed : FixedBytes 32) : Nat :=
  let n := Bytes.toNatLE ((Sha512.digest seed.toBytes).toBytes.take 32)
  n % Nat.pow 2 254 / 8 * 8 + Nat.pow 2 254

/-- The public key of a seed. -/
def publicKey (seed : FixedBytes 32) : FixedBytes 32 := encode (smul base 256 (secretScalar seed))

/-- The signature of a message under a seed. -/
def sign (seed : FixedBytes 32) (message : Bytes) : FixedBytes 64 :=
  let r := scalarOf ((Sha512.digest seed.toBytes).toBytes.drop 32 ++ message)
  let R := encode (smul base 256 r)
  let k := scalarOf (R.toBytes ++ (publicKey seed).toBytes ++ message)
  let S : FixedBytes 32 := ⟨Bytes.ofNatLE 32 ((r + k * secretScalar seed) % order), by simp⟩
  R.append S

/-- Whether a signature of a message is right for a public key. -/
def verify (key : FixedBytes 32) (message : Bytes) (signature : FixedBytes 64) : Bool :=
  let R := signature.toBytes.take 32
  let s := Bytes.toNatLE (signature.toBytes.drop 32)
  match decode? key with
  | some A =>
    let k := scalarOf (R ++ key.toBytes ++ message)
    s < order && (encode (add (smul base 256 s) (smul (neg A) 256 k))).toBytes == R
  | none => false

end TezosWallet.Edwards25519
