import TezosWallet.Bytes

/-!
# The Salsa20 stream

Twenty rounds over sixteen 32-bit words turn a key, a nonce and a counter into sixty-four bytes of
key stream. The extended-nonce form first derives a key of its own from the leading sixteen bytes
of the nonce; in the secrets handled here the nonce is all zeros, every secret having a key of its
own.

## Main definitions

* `Salsa20.block` — one block of key stream.
* `Salsa20.subkey` — the key derived from a key and sixteen bytes of nonce.
* `Salsa20.zeroNonceStream` — the extended-nonce stream for the zero nonce.
-/

namespace TezosWallet.Salsa20

/-- A word rotated to the left. -/
def rotl (x n : UInt32) : UInt32 := (x <<< n) ||| (x >>> (32 - n))

/-- Mixes the four words at the given indices. -/
def quarter (x : Array UInt32) (lane : Nat × Nat × Nat × Nat) : Array UInt32 :=
  let (i, j, k, l) := lane
  let b := x.getD j 0 ^^^ rotl (x.getD i 0 + x.getD l 0) 7
  let c := x.getD k 0 ^^^ rotl (b + x.getD i 0) 9
  let d := x.getD l 0 ^^^ rotl (c + b) 13
  let a := x.getD i 0 ^^^ rotl (d + c) 18
  (((x.setIfInBounds i a).setIfInBounds j b).setIfInBounds k c).setIfInBounds l d

/-- The columns, then the rows, of the four by four words, each from the diagonal on. -/
def lanes : List (Nat × Nat × Nat × Nat) := [
  (0, 4, 8, 12), (5, 9, 13, 1), (10, 14, 2, 6), (15, 3, 7, 11),
  (0, 1, 2, 3), (5, 6, 7, 4), (10, 11, 8, 9), (15, 12, 13, 14)]

/-- Twenty rounds, two at a time. -/
def rounds (x : Array UInt32) : Array UInt32 :=
  (List.replicate 10 lanes).foldl (fun x lanes => lanes.foldl quarter x) x

/-- The little-endian words of a byte string. -/
def words (count : Nat) (bytes : Bytes) : Array UInt32 :=
  ((Bytes.chunks 4 count bytes).map fun c => UInt32.ofNat (Bytes.toNatLE c)).toArray

/-- The words before the rounds: a key, sixteen bytes of input, and four constants on the
diagonal. -/
def start (key : FixedBytes 32) (input : FixedBytes 16) : Array UInt32 :=
  let k := words 8 key.toBytes
  let n := words 4 input.toBytes
  #[0x61707865] ++ k.extract 0 4 ++ #[0x3320646e] ++ n ++ #[0x79622d32] ++ k.extract 4 8 ++
    #[0x6b206574]

/-- Words as bytes, least significant byte first. -/
def toBytes (x : List UInt32) : Bytes := x.flatMap fun w => Bytes.ofNatLE 4 w.toNat

/-- One block of key stream: the words after the rounds, added to those before. -/
def block (key : FixedBytes 32) (input : FixedBytes 16) : FixedBytes 64 :=
  let x := start key input
  .ofLeading 64 (toBytes (List.zipWith (· + ·) x.toList (rounds x).toList))

/-- The key that sixteen bytes of nonce make of a key. -/
def subkey (key : FixedBytes 32) (nonce : FixedBytes 16) : FixedBytes 32 :=
  let x := rounds (start key nonce)
  .ofLeading 32 (toBytes ([0, 5, 10, 15, 6, 7, 8, 9].map fun i => x.getD i 0))

/-- The input of a block: eight zero bytes of nonce and the number of the block. -/
def blockInput (counter : Nat) : FixedBytes 16 where
  toBytes := List.replicate 8 0 ++ Bytes.ofNatLE 8 counter
  length_toBytes := by simp

/-- The first `length` bytes of the extended-nonce stream for the zero nonce. -/
def zeroNonceStream (key : FixedBytes 32) (length : Nat) : Bytes :=
  let inner := subkey key (.ofNatBE 16 0)
  let blocks := List.range ((length + 63) / 64)
  (blocks.flatMap fun i => (block inner (blockInput i)).toBytes).take length

end TezosWallet.Salsa20
