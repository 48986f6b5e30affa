import TezosWallet.Cipher.Salsa20

/-!
# Sealed boxes

A box is the authentication tag followed by the message combined with the key stream. The first
thirty-two bytes of the stream key the authenticator and the rest hides the message. The nonce is
zero, so a key must seal one message only.

The authenticator reads what is hidden as the coefficients of a polynomial modulo `2 ^ 130 - 5`,
sixteen bytes each with a one byte on top. Its value at one half of the key, shifted by the other
half, is the tag.

## Main definitions

* `Poly1305.tag` — the sixteen-byte tag of a message under a one-time key.
* `Secretbox.lock` — seals a message under a key.
* `Secretbox.unlock` — the message of a box, if its tag is right.
-/

namespace TezosWallet.Poly1305

/-- The prime modulus. -/
def modulus : Nat := Nat.pow 2 130 - 5

/-- The point of evaluation: the first half of a key with twenty-two bits cleared. -/
def point (key : FixedBytes 32) : Nat :=
  Bytes.toNatLE (key.toBytes.take 16) &&& 0x0ffffffc0ffffffc0ffffffc0fffffff

/-- The coefficients of a message, in order. -/
def coefficients (message : Bytes) : List Nat :=
  (Bytes.chunks 16 ((message.length + 15) / 16) message).map fun c => Bytes.toNatLE (c ++ [1])

/-- The tag of a message under a key that is used once. -/
def tag (key : FixedBytes 32) (message : Bytes) : FixedBytes 16 where
  toBytes :=
    let r := point key
    let sum := (coefficients message).foldl (fun acc c => (acc + c) * r % modulus) 0
    Bytes.ofNatLE 16 (sum + Bytes.toNatLE (key.toBytes.drop 16))
  length_toBytes := by simp

end TezosWallet.Poly1305

namespace TezosWallet.Secretbox

/-- Seals a message under a key. -/
def lock (key : FixedBytes 32) (message : Bytes) : Bytes :=
  let stream := Salsa20.zeroNonceStream key (32 + message.length)
  let hidden := Bytes.xor message (stream.drop 32)
  (Poly1305.tag (.ofLeading 32 stream) hidden).toBytes ++ hidden

/-- The message that was sealed in a box under a key, if the box carries the right tag. -/
def unlock (key : FixedBytes 32) (box : Bytes) : Option Bytes :=
  let tag := box.take 16
  let hidden := box.drop 16
  let stream := Salsa20.zeroNonceStream key (32 + hidden.length)
  if tag = (Poly1305.tag (.ofLeading 32 stream) hidden).toBytes then
    some (Bytes.xor hidden (stream.drop 32))
  else none

end TezosWallet.Secretbox
