import TezosWallet.Bytes

/-!
# SHA-256

The message, a one bit, zeros and its bit length are cut into blocks of 64 bytes. Each block is
mixed into a chaining value of eight 32-bit words; the last chaining value is the digest.

## Main definitions

* `Sha256.State` — the chaining value; `Sha256.compress` mixes one block in.
* `Sha256.digest` — the digest of a byte string.
-/

namespace TezosWallet.Sha256

/-- A chaining value, or the eight working words of a block. -/
structure State where
  (a b c d e f g h : UInt32)

/-- Sixteen consecutive words of the message schedule. -/
structure Window where
  (w0 w1 w2 w3 w4 w5 w6 w7 : UInt32)
  (w8 w9 w10 w11 w12 w13 w14 w15 : UInt32)

/-- A word rotated to the right. -/
@[inline] def rotr (x n : UInt32) : UInt32 := (x >>> n) ||| (x <<< (32 - n))

/-- The window one step on: the new word depends on four words of the old window. -/
@[inline] def Window.next (w : Window) : Window :=
  let x := w.w1
  let y := w.w14
  let mixX := rotr x 7 ^^^ rotr x 18 ^^^ (x >>> 3)
  let mixY := rotr y 17 ^^^ rotr y 19 ^^^ (y >>> 10)
  ⟨w.w1, w.w2, w.w3, w.w4, w.w5, w.w6, w.w7, w.w8, w.w9, w.w10, w.w11, w.w12, w.w13, w.w14, w.w15,
    w.w0 + mixX + w.w9 + mixY⟩

/-- One round, with the round's constant and schedule word. -/
@[inline] def State.step (s : State) (k w : UInt32) : State :=
  let mixE := rotr s.e 6 ^^^ rotr s.e 11 ^^^ rotr s.e 25
  let choice := (s.e &&& s.f) ^^^ (~~~s.e &&& s.g)
  let t := s.h + mixE + choice + k + w
  let mixA := rotr s.a 2 ^^^ rotr s.a 13 ^^^ rotr s.a 22
  let majority := (s.a &&& s.b) ^^^ (s.a &&& s.c) ^^^ (s.b &&& s.c)
  ⟨t + mixA + majority, s.a, s.b, s.c, s.d + t, s.e, s.f, s.g⟩

/-- The round constants: the leading fraction bits of the cube roots of the first primes. -/
def roundConstants : List UInt32 := [
  0x428a2f98, 0x71374491, 0xb5c0fbcf, 0xe9b5dba5, 0x3956c25b, 0x59f111f1, 0x923f82a4, 0xab1c5ed5,
  0xd807aa98, 0x12835b01, 0x243185be, 0x550c7dc3, 0x72be5d74, 0x80deb1fe, 0x9bdc06a7, 0xc19bf174,
  0xe49b69c1, 0xefbe4786, 0x0fc19dc6, 0x240ca1cc, 0x2de92c6f, 0x4a7484aa, 0x5cb0a9dc, 0x76f988da,
  0x983e5152, 0xa831c66d, 0xb00327c8, 0xbf597fc7, 0xc6e00bf3, 0xd5a79147, 0x06ca6351, 0x14292967,
  0x27b70a85, 0x2e1b2138, 0x4d2c6dfc, 0x53380d13, 0x650a7354, 0x766a0abb, 0x81c2c92e, 0x92722c85,
  0xa2bfe8a1, 0xa81a664b, 0xc24b8b70, 0xc76c51a3, 0xd192e819, 0xd6990624, 0xf40e3585, 0x106aa070,
  0x19a4c116, 0x1e376c08, 0x2748774c, 0x34b0bcb5, 0x391c0cb3, 0x4ed8aa4a, 0x5b9cca4f, 0x682e6ff3,
  0x748f82ee, 0x78a5636f, 0x84c87814, 0x8cc70208, 0x90befffa, 0xa4506ceb, 0xbef9a3f7, 0xc67178f2]

/-- Runs one round for each constant while the window slides over the schedule. -/
def rounds : List UInt32 → Window → State → State
  | [], _, s => s
  | k :: ks, w, s => rounds ks w.next (s.step k w.w0)

/-- Mixes one block, given as its first sixteen schedule words, into a chaining value. -/
def compress (s : State) (block : Window) : State :=
  let r := rounds roundConstants block s
  ⟨s.a + r.a, s.b + r.b, s.c + r.c, s.d + r.d, s.e + r.e, s.f + r.f, s.g + r.g, s.h + r.h⟩

/-- The big-endian word at index `i` of a block. -/
def word (block : Bytes) (i : Nat) : UInt32 :=
  UInt32.ofNat (Bytes.toNatBE ((block.drop (4 * i)).take 4))

/-- The schedule words that a block of 64 bytes begins with. -/
def Window.ofBlock (block : Bytes) : Window :=
  let w := word block
  ⟨w 0, w 1, w 2, w 3, w 4, w 5, w 6, w 7, w 8, w 9, w 10, w 11, w 12, w 13, w 14, w 15⟩

/-- The chaining value before the first block. -/
def initial : State := ⟨
  0x6a09e667, 0xbb67ae85, 0x3c6ef372, 0xa54ff53a, 0x510e527f, 0x9b05688c, 0x1f83d9ab, 0x5be0cd19⟩

/-- What completes a message of the given length to whole blocks. -/
def padding (length : Nat) : Bytes :=
  0x80 :: List.replicate ((119 - length % 64) % 64) 0 ++ Bytes.ofNatBE 8 (8 * length)

/-- Mixes a message into a chaining value that `before` bytes, a whole number of blocks, led to. -/
def absorb (s : State) (before : Nat) (message : Bytes) : State :=
  let padded := message ++ padding (before + message.length)
  (Bytes.chunks 64 (padded.length / 64) padded).foldl
    (fun s block => compress s (.ofBlock block)) s

/-- A chaining value as bytes. -/
def State.toBytes (s : State) : FixedBytes 32 where
  toBytes := [s.a, s.b, s.c, s.d, s.e, s.f, s.g, s.h].flatMap fun w => Bytes.ofNatBE 4 w.toNat
  length_toBytes := by simp

/-- The digest of a byte string. -/
def digest (message : Bytes) : FixedBytes 32 := (absorb initial 0 message).toBytes

end TezosWallet.Sha256
