/-!
# Byte strings

Byte strings are lists of bytes, so that every encoder is a list function and every law about
layouts is a law about append. This file also fixes how numbers become bytes.

## Main definitions

* `Bytes` — a byte string; `Bytes.utf8` is the UTF-8 form of a text.
* `FixedBytes n` — a byte string of exactly `n` bytes.
* `Bytes.ofNatBE`, `Bytes.ofNatLE` — a number cut to a fixed width, either end first.
* `Bytes.toNatBE`, `Bytes.toNatLE` — the number a byte string stands for.
-/

namespace TezosWallet

/-- A byte string. -/
abbrev Bytes := List UInt8

namespace Bytes

/-- The UTF-8 form of a text. -/
def utf8 (text : String) : Bytes := text.toUTF8.data.toList

/-- The number whose base-256 digits are the given bytes, most significant first. -/
def toNatBE (bytes : Bytes) : Nat := bytes.foldl (fun n b => 256 * n + b.toNat) 0

/-- The number whose base-256 digits are the given bytes, least significant first. -/
def toNatLE : Bytes → Nat
  | [] => 0
  | b :: rest => b.toNat + 256 * toNatLE rest

/-- The low `width` bytes of a number, least significant first. -/
def ofNatLE : (width n : Nat) → Bytes
  | 0, _ => []
  | width + 1, n => UInt8.ofNat n :: ofNatLE width (n / 256)

/-- The low `width` bytes of a number, most significant first. -/
def ofNatBE (width n : Nat) : Bytes := (ofNatLE width n).reverse

/-- The low `width` bytes of an integer in two's complement, most significant first. -/
def ofIntBE (width : Nat) (n : Int) : Bytes := ofNatBE width (n % Nat.pow 256 width).toNat

/-- The first `count` pieces of `size` bytes each. -/
def chunks (size : Nat) : (count : Nat) → Bytes → List Bytes
  | 0, _ => []
  | count + 1, bytes => bytes.take size :: chunks size count (bytes.drop size)

/-- Bytewise exclusive or, as long as the shorter operand. -/
def xor (x y : Bytes) : Bytes := List.zipWith (· ^^^ ·) x y

@[simp] theorem length_ofNatLE (width n : Nat) : (ofNatLE width n).length = width := by
  induction width generalizing n with
  | zero => rfl
  | succ width ih => simp [ofNatLE, ih]

@[simp] theorem length_ofNatBE (width n : Nat) : (ofNatBE width n).length = width := by
  simp [ofNatBE]

@[simp] theorem length_ofIntBE (width : Nat) (n : Int) : (ofIntBE width n).length = width := by
  simp [ofIntBE]

end Bytes

/-- A byte string of exactly `n` bytes. -/
structure FixedBytes (n : Nat) where
  /-- The bytes themselves. -/
  toBytes : Bytes
  length_toBytes : toBytes.length = n
  deriving DecidableEq, Repr

namespace FixedBytes

/-- A byte string as one of `n` bytes, if it has that many. -/
def ofBytes? (n : Nat) (bytes : Bytes) : Option (FixedBytes n) :=
  if h : bytes.length = n then some ⟨bytes, h⟩ else none

/-- The first `n` bytes of a byte string, completed by zeros when it is shorter. -/
def ofLeading (n : Nat) (bytes : Bytes) : FixedBytes n where
  toBytes := bytes.take n ++ List.replicate (n - bytes.length) 0
  length_toBytes := by
    simp only [List.length_append, List.length_take, List.length_replicate]
    omega

/-- The big-endian form of a number in `n` bytes. -/
def ofNatBE (n : Nat) (value : Nat) : FixedBytes n := ⟨Bytes.ofNatBE n value, by simp⟩

/-- One byte string after another. -/
def append {m n : Nat} (x : FixedBytes m) (y : FixedBytes n) : FixedBytes (m + n) where
  toBytes := x.toBytes ++ y.toBytes
  length_toBytes := by simp [x.length_toBytes, y.length_toBytes]

@[ext] theorem ext {n : Nat} {x y : FixedBytes n} (h : x.toBytes = y.toBytes) : x = y := by
  cases x; cases y; simp_all

end FixedBytes

end TezosWallet
