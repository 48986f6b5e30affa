import TezosWallet.Bytes

/-!
# SHA-512

The message, a one bit, zeros and its bit length are cut into blocks of 128 bytes. Each block is
mixed into a chaining value of eight 64-bit words; the last chaining value is the digest.

## Main definitions

* `Sha512.State` — the chaining value; `Sha512.compress` mixes one block in.
* `Sha512.digest` — the digest of a byte string.
-/

namespace TezosWallet.Sha512

/-- A chaining value, or the eight working words of a block. -/
structure State where
  (a b c d e f g h : UInt64)

/-- Sixteen consecutive words of the message schedule. -/
structure Window where
  (w0 w1 w2 w3 w4 w5 w6 w7 : UInt64)
  (w8 w9 w10 w11 w12 w13 w14 w15 : UInt64)

/-- A word rotated to the right. -/
@[inline] def rotr (x n : UInt64) : UInt64 := (x >>> n) ||| (x <<< (64 - n))

/-- The window one step on: the new word depends on four words of the old window. -/
@[inline] def Window.next (w : Window) : Window :=
  let x := w.w1
  let y := w.w14
  let mixX := rotr x 1 ^^^ rotr x 8 ^^^ (x >>> 7)
  let mixY := rotr y 19 ^^^ rotr y 61 ^^^ (y >>> 6)
  ⟨w.w1, w.w2, w.w3, w.w4, w.w5, w.w6, w.w7, w.w8, w.w9, w.w10, w.w11, w.w12, w.w13, w.w14, w.w15,
    w.w0 + mixX + w.w9 + mixY⟩

/-- One round, with the round's constant and schedule word. -/
@[inline] def State.step (s : State) (k w : UInt64) : State :=
  let mixE := rotr s.e 14 ^^^ rotr s.e 18 ^^^ rotr s.e 41
  let choice := (s.e &&& s.f) ^^^ (~~~s.e &&& s.g)
  let t := s.h + mixE + choice + k + w
  let mixA := rotr s.a 28 ^^^ rotr s.a 34 ^^^ rotr s.a 39
  let majority := (s.a &&& s.b) ^^^ (s.a &&& s.c) ^^^ (s.b &&& s.c)
  ⟨t + mixA + majority, s.a, s.b, s.c, s.d + t, s.e, s.f, s.g⟩

/-- The round constants: the leading fraction bits of the cube roots of the first primes. -/
def roundConstants : List UInt64 := [
  0x428a2f98d728ae22, 0x7137449123ef65cd, 0xb5c0fbcfec4d3b2f, 0xe9b5dba58189dbbc,
  0x3956c25bf348b538, 0x59f111f1b605d019, 0x923f82a4af194f9b, 0xab1c5ed5da6d8118,
  0xd807aa98a3030242, 0x12835b0145706fbe, 0x243185be4ee4b28c, 0x550c7dc3d5ffb4e2,
  0x72be5d74f27b896f, 0x80deb1fe3b1696b1, 0x9bdc06a725c71235, 0xc19bf174cf692694,
  0xe49b69c19ef14ad2, 0xefbe4786384f25e3, 0x0fc19dc68b8cd5b5, 0x240ca1cc77ac9c65,
  0x2de92c6f592b0275, 0x4a7484aa6ea6e483, 0x5cb0a9dcbd41fbd4, 0x76f988da831153b5,
  0x983e5152ee66dfab, 0xa831c66d2db43210, 0xb00327c898fb213f, 0xbf597fc7beef0ee4,
  0xc6e00bf33da88fc2, 0xd5a79147930aa725, 0x06ca6351e003826f, 0x142929670a0e6e70,
  0x27b70a8546d22ffc, 0x2e1b21385c26c926, 0x4d2c6dfc5ac42aed, 0x53380d139d95b3df,
  0x650a73548baf63de, 0x766a0abb3c77b2a8, 0x81c2c92e47edaee6, 0x92722c851482353b,
  0xa2bfe8a14cf10364, 0xa81a664bbc423001, 0xc24b8b70d0f89791, 0xc76c51a30654be30,
  0xd192e819d6ef5218, 0xd69906245565a910, 0xf40e35855771202a, 0x106aa07032bbd1b8,
  0x19a4c116b8d2d0c8, 0x1e376c085141ab53, 0x2748774cdf8eeb99, 0x34b0bcb5e19b48a8,
  0x391c0cb3c5c95a63, 0x4ed8aa4ae3418acb, 0x5b9cca4f7763e373, 0x682e6ff3d6b2b8a3,
  0x748f82ee5defb2fc, 0x78a5636f43172f60, 0x84c87814a1f0ab72, 0x8cc702081a6439ec,
  0x90befffa23631e28, 0xa4506cebde82bde9, 0xbef9a3f7b2c67915, 0xc67178f2e372532b,
  0xca273eceea26619c, 0xd186b8c721c0c207, 0xeada7dd6cde0eb1e, 0xf57d4f7fee6ed178,
  0x06f067aa72176fba, 0x0a637dc5a2c898a6, 0x113f9804bef90dae, 0x1b710b35131c471b,
  0x28db77f523047d84, 0x32caab7b40c72493, 0x3c9ebe0a15c9bebc, 0x431d67c49c100d4c,
  0x4cc5d4becb3e42b6, 0x597f299cfc657e2a, 0x5fcb6fab3ad6faec, 0x6c44198c4a475817]

/-- Runs one round for each constant while the window slides over the schedule. -/
def rounds : List UInt64 → Window → State → State
  | [], _, s => s
  | k :: ks, w, s => rounds ks w.next (s.step k w.w0)

/-- Mixes one block, given as its first sixteen schedule words, into a chaining value. -/
def compress (s : State) (block : Window) : State :=
  let r := rounds roundConstants block s
  ⟨s.a + r.a, s.b + r.b, s.c + r.c, s.d + r.d, s.e + r.e, s.f + r.f, s.g + r.g, s.h + r.h⟩

/-- The big-endian word at index `i` of a block. -/
def word (block : Bytes) (i : Nat) : UInt64 :=
  UInt64.ofNat (Bytes.toNatBE ((block.drop (8 * i)).take 8))

/-- The schedule words that a block of 128 bytes begins with. -/
def Window.ofBlock (block : Bytes) : Window :=
  let w := word block
  ⟨w 0, w 1, w 2, w 3, w 4, w 5, w 6, w 7, w 8, w 9, w 10, w 11, w 12, w 13, w 14, w 15⟩

/-- The chaining value before the first block. -/
def initial : State := ⟨
  0x6a09e667f3bcc908, 0xbb67ae8584caa73b, 0x3c6ef372fe94f82b, 0xa54ff53a5f1d36f1,
  0x510e527fade682d1, 0x9b05688c2b3e6c1f, 0x1f83d9abfb41bd6b, 0x5be0cd19137e2179⟩

/-- What completes a message of the given length to whole blocks. -/
def padding (length : Nat) : Bytes :=
  0x80 :: List.replicate ((239 - length % 128) % 128) 0 ++ Bytes.ofNatBE 16 (8 * length)

/-- Mixes a message into a chaining value that `before` bytes, a whole number of blocks, led to. -/
def absorb (s : State) (before : Nat) (message : Bytes) : State :=
  let padded := message ++ padding (before + message.length)
  (Bytes.chunks 128 (padded.length / 128) padded).foldl
    (fun s block => compress s (.ofBlock block)) s

/-- A chaining value as bytes. -/
def State.toBytes (s : State) : FixedBytes 64 where
  toBytes := [s.a, s.b, s.c, s.d, s.e, s.f, s.g, s.h].flatMap fun w => Bytes.ofNatBE 8 w.toNat
  length_toBytes := by simp

/-- The digest of a byte string. -/
def digest (message : Bytes) : FixedBytes 64 := (absorb initial 0 message).toBytes

end TezosWallet.Sha512
