import TezosWallet.Curve.Weierstrass
import TezosWallet.Hash.Hmac

/-!
# ECDSA with deterministic nonces

Signatures of a thirty-two-byte digest are two numbers below the group order, `r` and then `s`,
of thirty-two bytes each. The nonce is drawn from a keyed-hash generator seeded with the secret
and the digest, so equal inputs give equal signatures.

## Main definitions

* `Ecdsa.scalar?` — the number of a secret, if it is a proper one.
* `Ecdsa.publicKey?` — the public key of a secret.
* `Ecdsa.sign?`, `Ecdsa.verify` — signatures of a digest.
* `Ecdsa.Pair.lower` — the smaller of a signature's two forms.
-/

namespace TezosWallet.Ecdsa

variable (C : ShortCurve)

/-- The two numbers of a signature. -/
structure Pair where
  (r s : Nat)
  deriving DecidableEq

/-- A signature as bytes. -/
def Pair.toBytes (sig : Pair) : FixedBytes 64 :=
  (FixedBytes.ofNatBE 32 sig.r).append (.ofNatBE 32 sig.s)

/-- Whether a number is neither zero nor at least the group order. -/
def inRange (n : Nat) : Bool := 0 < n && n < C.order

/-- The signature written by sixty-four bytes, if both numbers are in range. -/
def Pair.ofBytes? (bytes : FixedBytes 64) : Option Pair :=
  let r := Bytes.toNatBE (bytes.toBytes.take 32)
  let s := Bytes.toNatBE (bytes.toBytes.drop 32)
  if inRange C r && inRange C s then some ⟨r, s⟩ else none

/-- The number of a secret, if it is in range. -/
def scalar? (secret : FixedBytes 32) : Option Nat :=
  let n := Bytes.toNatBE secret.toBytes
  if inRange C n then some n else none

/-- The public key of a secret number, in its short written form. -/
def publicKeyOf (n : Nat) : Bytes :=
  match C.affine? (C.smul C.base 256 n) with
  | some point => ShortCurve.encode point
  | none => []

/-- The public key of a secret. -/
def publicKey? (secret : FixedBytes 32) : Option Bytes := (scalar? C secret).map (publicKeyOf C)

/-- The state of the nonce generator. -/
structure Generator where
  key : Bytes
  value : Bytes

/-- Mixes bytes into the generator's state. -/
def Generator.update (g : Generator) (input : Bytes) : Generator :=
  let key := (Hmac.sha256 g.key (g.value ++ input)).toBytes
  ⟨key, (Hmac.sha256 key g.value).toBytes⟩

/-- The generator for a secret number and a digest. The digest's bytes are taken as they are, also
where their number is not below the group order. -/
def Generator.start (n : Nat) (digest : FixedBytes 32) : Generator :=
  let input := Bytes.ofNatBE 32 n ++ digest.toBytes
  (Generator.mk (List.replicate 32 0) (List.replicate 32 1)).update (0 :: input)
    |>.update (1 :: input)

/-- The first number in range that the generator gives within `attempts` draws. -/
def Generator.nonce? : (attempts : Nat) → Generator → Option Nat
  | 0, _ => none
  | attempts + 1, g =>
    let value := (Hmac.sha256 g.key g.value).toBytes
    let k := Bytes.toNatBE value
    if inRange C k then some k
    else Generator.nonce? attempts (Generator.update ⟨g.key, value⟩ [0])

/-- The signature of a digest under a secret number, in the form that the nonce gives. A draw
misses the range with probability below one in four billion, so a hundred draws are plenty. -/
def sign? (n : Nat) (digest : FixedBytes 32) : Option Pair := do
  let k ← (Generator.start n digest).nonce? C 100
  let (x, _) ← C.affine? (C.smul C.base 256 k)
  let r := x % C.order
  let kInv := (Modular.inv C.order k).toNat
  let s := kInv * (Bytes.toNatBE digest.toBytes + r * n) % C.order
  if inRange C r && inRange C s then some ⟨r, s⟩ else none

/-- Whether the second number is at most half the group order. -/
def Pair.isLow (sig : Pair) : Bool := sig.s ≤ C.order / 2

/-- The form of a signature whose second number is at most half the group order. -/
def Pair.lower (sig : Pair) : Pair := if sig.isLow C then sig else ⟨sig.r, C.order - sig.s⟩

/-- Whether a signature of a digest is right for a point as public key. -/
def verify (key : ShortCurve.Point) (digest : FixedBytes 32) (sig : Pair) : Bool :=
  let sInv := (Modular.inv C.order sig.s).toNat
  let u := Bytes.toNatBE digest.toBytes * sInv % C.order
  let v := sig.r * sInv % C.order
  match C.affine? (C.add (C.smul C.base 256 u) (C.smul key 256 v)) with
  | some (x, _) => x % C.order == sig.r
  | none => false

end TezosWallet.Ecdsa
