import TezosWallet.Cipher.Secretbox

/-!
# A sealed box opens to the message in it, and nothing else opens

The key stream is long enough for every message, and the message and what hides it have the same
length. So the stream is read from the same offset when a box is sealed and when it is opened, and
the authenticator sees the same bytes both times.

## Main results

* `Salsa20.length_zeroNonceStream` — the length of the key stream.
* `Bytes.xor_xor_cancel` — the stream hides a message and reveals it again.
* `Secretbox.unlock_lock`, `Secretbox.eq_lock_of_unlock` — the boxes that open to a message.
-/

namespace TezosWallet

namespace Bytes

theorem length_xor {x stream : Bytes} (h : x.length ≤ stream.length) :
    (xor x stream).length = x.length := by
  rw [xor, List.length_zipWith, Nat.min_eq_left h]

/-- A stream that covers a byte string hides it and reveals it again. -/
theorem xor_xor_cancel {x stream : Bytes} (h : x.length ≤ stream.length) :
    xor (xor x stream) stream = x := by
  induction x generalizing stream with
  | nil => rfl
  | cons b x ih =>
    cases stream with
    | nil => simp at h
    | cons k stream =>
      have hb : b ^^^ k ^^^ k = b := by rw [UInt8.xor_assoc, UInt8.xor_self, UInt8.xor_zero]
      have htail := ih (Nat.le_of_succ_le_succ h)
      simp only [xor, List.zipWith_cons_cons] at htail ⊢
      rw [hb, htail]

end Bytes

namespace Salsa20

/-- The blocks are enough for every length. -/
theorem length_zeroNonceStream (key : FixedBytes 32) (length : Nat) :
    (zeroNonceStream key length).length = length := by
  simp only [zeroNonceStream, List.length_take, List.length_flatMap, FixedBytes.length_toBytes,
    List.map_const', List.length_range, List.sum_replicate_nat]
  omega

/-- Behind the authenticator's key there is stream enough for a message. -/
theorem le_length_drop_zeroNonceStream (key : FixedBytes 32) (length : Nat) :
    length ≤ ((zeroNonceStream key (32 + length)).drop 32).length := by
  have hlength : ((zeroNonceStream key (32 + length)).drop 32).length = length := by
    rw [List.length_drop, length_zeroNonceStream, Nat.add_sub_cancel_left]
  exact Nat.le_of_eq hlength.symm

end Salsa20

namespace Secretbox

variable {key : FixedBytes 32} {box message : Bytes}

theorem length_hidden (key : FixedBytes 32) (message : Bytes) :
    (Bytes.xor message ((Salsa20.zeroNonceStream key (32 + message.length)).drop 32)).length =
      message.length :=
  Bytes.length_xor (Salsa20.le_length_drop_zeroNonceStream key message.length)

theorem length_lock (key : FixedBytes 32) (message : Bytes) :
    (lock key message).length = 16 + message.length := by
  rw [lock, List.length_append, FixedBytes.length_toBytes, length_hidden]

/-- A box opens to what was sealed in it. -/
theorem unlock_lock (key : FixedBytes 32) (message : Bytes) :
    unlock key (lock key message) = some message := by
  have hstream := Salsa20.le_length_drop_zeroNonceStream key message.length
  rw [unlock, lock]
  simp only [List.take_left' (FixedBytes.length_toBytes _),
    List.drop_left' (FixedBytes.length_toBytes _), length_hidden, if_pos]
  rw [Bytes.xor_xor_cancel hstream]

/-- What opens to a message is the box that the message is sealed in. -/
theorem eq_lock_of_unlock (h : unlock key box = some message) : box = lock key message := by
  rw [unlock] at h
  simp only [Option.ite_none_right_eq_some, Option.some.injEq] at h
  obtain ⟨htag, rfl⟩ := h
  have hstream := Salsa20.le_length_drop_zeroNonceStream key (box.drop 16).length
  rw [lock]
  simp only [Bytes.length_xor hstream, Bytes.xor_xor_cancel hstream]
  rw [← htag, List.take_append_drop]

end Secretbox

end TezosWallet
