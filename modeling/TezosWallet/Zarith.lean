import TezosWallet.Bytes

/-!
# Variable-length integers

A natural number is cut into groups of seven bits, least significant first; every byte but the
last has its top bit set. An integer gives the sign to bit `0x40` of the first byte, which keeps
six bits of the magnitude; the following bytes are as for naturals.

## Main definitions

* `Zarith.encodeNatural`, `Zarith.encodeUInt64`, `Zarith.encodeInteger` — the bytes of a number.
* `Zarith.decodeNatural`, `Zarith.decodeInteger` — a number at the front of a byte string, with
  the count of its bytes.
* `Zarith.Error` — the bytes end inside a number.
-/

namespace TezosWallet.Zarith

/-- Why a byte string does not begin with a number. -/
inductive Error
  /-- The given number of bytes were read, and each announced another one. -/
  | unterminated (consumed : Nat)
  deriving DecidableEq, Repr

/-- The wording of an error. -/
def Error.message : Error → String
  | .unterminated consumed =>
    s!"Malformed integer: {consumed} bytes read without a terminating byte"

/-- The bytes of a natural number. -/
def encodeNatural (n : Nat) : Bytes :=
  if n < 128 then [UInt8.ofNat n]
  else UInt8.ofNat (128 + n % 128) :: encodeNatural (n / 128)
termination_by n
decreasing_by omega

/-- The bytes of a natural number of sixty-four bits. -/
def encodeUInt64 (n : UInt64) : Bytes := encodeNatural n.toNat

/-- The bytes of an integer. -/
def encodeInteger (z : Int) : Bytes :=
  let sign := if z < 0 then 64 else 0
  let magnitude := z.natAbs
  if magnitude < 64 then [UInt8.ofNat (sign + magnitude)]
  else UInt8.ofNat (128 + sign + magnitude % 64) :: encodeNatural (magnitude / 64)

/-- The natural number at the front of a byte string and the count of its bytes. -/
def natural? : Bytes → Option (Nat × Nat)
  | [] => none
  | b :: rest =>
    if b.toNat < 128 then some (b.toNat, 1)
    else (natural? rest).map fun (n, used) => (b.toNat % 128 + 128 * n, used + 1)

/-- The integer at the front of a byte string and the count of its bytes. -/
def integer? : Bytes → Option (Int × Nat)
  | [] => none
  | b :: rest =>
    let signed (magnitude : Nat) : Int :=
      if b.toNat / 64 % 2 = 1 then -(magnitude : Int) else magnitude
    if b.toNat < 128 then some (signed (b.toNat % 64), 1)
    else (natural? rest).map fun (n, used) => (signed (b.toNat % 64 + 64 * n), used + 1)

/-- Reads a natural number from the front of a byte string. -/
def decodeNatural (bytes : Bytes) : Except Error (Nat × Nat) :=
  (natural? bytes).elim (.error (.unterminated bytes.length)) .ok

/-- Reads an integer from the front of a byte string. -/
def decodeInteger (bytes : Bytes) : Except Error (Int × Nat) :=
  (integer? bytes).elim (.error (.unterminated bytes.length)) .ok

/-- A number to be written, with or without a sign. -/
inductive Number
  | natural (n : Nat)
  | integer (z : Int)
  deriving DecidableEq, Repr

/-- The bytes of a number. -/
def Number.encode : Number → Bytes
  | .natural n => encodeNatural n
  | .integer z => encodeInteger z

end TezosWallet.Zarith
