import TezosWallet.Bytes

/-!
# BLAKE2b

The generic hash of the network. Twenty-byte digests identify keys and contracts; thirty-two-byte
digests are what keys sign and what script expressions are addressed by.

## Main definitions

* `Blake2b.digest` — the digest of a byte string, of a chosen size up to sixty-four bytes.
* `Blake2b.digest160`, `Blake2b.digest256` — the two sizes in use.
-/

namespace TezosWallet.Blake2b

/-- The initial words: the leading fraction bits of the square roots of the first primes. -/
def initial : Array UInt64 := #[
  0x6a09e667f3bcc908, 0xbb67ae8584caa73b, 0x3c6ef372fe94f82b, 0xa54ff53a5f1d36f1,
  0x510e527fade682d1, 0x9b05688c2b3e6c1f, 0x1f83d9abfb41bd6b, 0x5be0cd19137e2179]

/-- The order in which each round takes the words of a block. -/
def schedule : List (List Nat) := [
  [0, 1, 2, 3, 4, 5, 6, 7, 8, 9, 10, 11, 12, 13, 14, 15],
  [14, 10, 4, 8, 9, 15, 13, 6, 1, 12, 0, 2, 11, 7, 5, 3],
  [11, 8, 12, 0, 5, 2, 15, 13, 10, 14, 3, 6, 7, 1, 9, 4],
  [7, 9, 3, 1, 13, 12, 11, 14, 2, 6, 5, 10, 4, 0, 15, 8],
  [9, 0, 5, 7, 2, 4, 10, 15, 14, 1, 11, 12, 6, 8, 3, 13],
  [2, 12, 6, 10, 0, 11, 8, 3, 4, 13, 7, 5, 15, 14, 1, 9],
  [12, 5, 1, 15, 14, 13, 4, 10, 0, 7, 6, 3, 9, 2, 8, 11],
  [13, 11, 7, 14, 12, 1, 3, 9, 5, 0, 15, 4, 8, 6, 2, 10],
  [6, 15, 14, 9, 11, 3, 0, 8, 12, 2, 13, 7, 1, 4, 10, 5],
  [10, 2, 8, 4, 7, 6, 1, 5, 15, 11, 9, 14, 3, 12, 13, 0],
  [0, 1, 2, 3, 4, 5, 6, 7, 8, 9, 10, 11, 12, 13, 14, 15],
  [14, 10, 4, 8, 9, 15, 13, 6, 1, 12, 0, 2, 11, 7, 5, 3]]

/-- The columns, then the diagonals, of the four by four working words. -/
def lanes : List (Nat × Nat × Nat × Nat) := [
  (0, 4, 8, 12), (1, 5, 9, 13), (2, 6, 10, 14), (3, 7, 11, 15),
  (0, 5, 10, 15), (1, 6, 11, 12), (2, 7, 8, 13), (3, 4, 9, 14)]

/-- A word rotated to the right. -/
def rotr (x n : UInt64) : UInt64 := (x >>> n) ||| (x <<< (64 - n))

/-- Mixes two message words into one lane of the working words. -/
def mix (v : Array UInt64) (lane : Nat × Nat × Nat × Nat) (x y : UInt64) : Array UInt64 :=
  let (ia, ib, ic, id) := lane
  let a := v.getD ia 0 + v.getD ib 0 + x
  let d := rotr (v.getD id 0 ^^^ a) 32
  let c := v.getD ic 0 + d
  let b := rotr (v.getD ib 0 ^^^ c) 24
  let a := a + b + y
  let d := rotr (d ^^^ a) 16
  let c := c + d
  let b := rotr (b ^^^ c) 63
  (((v.setIfInBounds ia a).setIfInBounds ib b).setIfInBounds ic c).setIfInBounds id d

/-- Mixes a block into the given lanes, each taking the next two words of the order. -/
def mixLanes (block : Array UInt64) :
    List (Nat × Nat × Nat × Nat) → List Nat → Array UInt64 → Array UInt64
  | lane :: lanes, i :: j :: order, v =>
    mixLanes block lanes order (mix v lane (block.getD i 0) (block.getD j 0))
  | _, _, v => v

/-- One round over all lanes. -/
def round (block v : Array UInt64) (order : List Nat) : Array UInt64 := mixLanes block lanes order v

/-- Mixes one block into the chaining words; `count` bytes have been read with it, and `last`
tells the last block from the others. -/
def compress (h block : Array UInt64) (count : Nat) (last : Bool) : Array UInt64 :=
  let v := (h ++ initial).modify 12 (· ^^^ UInt64.ofNat count)
    |>.modify 13 (· ^^^ UInt64.ofNat (count / Nat.pow 2 64))
  let v := if last then v.modify 14 (~~~ ·) else v
  let v := schedule.foldl (round block) v
  (Array.range 8).map fun i => h.getD i 0 ^^^ v.getD i 0 ^^^ v.getD (i + 8) 0

/-- The sixteen little-endian words of a block, which zeros complete to 128 bytes. -/
def words (block : Bytes) : Array UInt64 :=
  (Array.range 16).map fun i => UInt64.ofNat (Bytes.toNatLE ((block.drop (8 * i)).take 8))

/-- Mixes all blocks of a message, `count` bytes of which have been read. Only the last block may
be short, and the empty message has one empty block. -/
def absorb (h : Array UInt64) (count : Nat) : List Bytes → Array UInt64
  | [] => h
  | [block] => compress h (words block) (count + block.length) true
  | block :: rest => absorb (compress h (words block) (count + 128) false) (count + 128) rest

/-- The digest of a byte string, of `size` bytes. -/
def digest (size : Nat) (message : Bytes) : FixedBytes size :=
  let h := initial.modify 0 (· ^^^ (0x01010000 ^^^ UInt64.ofNat size))
  let blocks := Bytes.chunks 128 (max 1 ((message.length + 127) / 128)) message
  .ofLeading size ((absorb h 0 blocks).toList.flatMap fun w => Bytes.ofNatLE 8 w.toNat)

/-- The digest that identifies a public key. -/
def digest160 (message : Bytes) : FixedBytes 20 := digest 20 message

/-- The digest that is signed, and that addresses a script expression. -/
def digest256 (message : Bytes) : FixedBytes 32 := digest 32 message

end TezosWallet.Blake2b
