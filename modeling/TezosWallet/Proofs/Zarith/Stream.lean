import TezosWallet.Proofs.Buffer
import TezosWallet.Proofs.Zarith
import TezosWallet.Operation.Forge

/-!
# Streams of numbers

Naturals and integers are appended to a buffer one after the other. Read from where the buffer
stood, each from the offset at which the one before it ends, they come back in order, and the last
of them ends where the buffer does, whatever is written after it.

## Main definitions

* `Zarith.Kind` — how a number is written, which its reader has to know.
* `Zarith.readStream` — numbers of given kinds, from an offset on.

## Main results

* `Zarith.decodeNatural_append`, `Zarith.decodeInteger_append` — one number in front of anything.
* `Zarith.readStream_append` — the numbers written behind any bytes and in front of any others.
* `Zarith.stream_recovered` — both, and the buffer that the numbers are appended to.
-/

namespace TezosWallet.Zarith

/-! ### One number -/

/-- A natural number is read from the front of its own bytes, and takes all of them. -/
theorem decodeNatural_append (n : Nat) (rest : Bytes) :
    decodeNatural (encodeNatural n ++ rest) = .ok (n, (encodeNatural n).length) :=
  Outcome.elim_eq_ok_iff.mpr (natural?_encodeNatural_append n rest)

/-- An integer is read from the front of its own bytes, and takes all of them. -/
theorem decodeInteger_append (z : Int) (rest : Bytes) :
    decodeInteger (encodeInteger z ++ rest) = .ok (z, (encodeInteger z).length) :=
  Outcome.elim_eq_ok_iff.mpr (integer?_encodeInteger_append z rest)

/-- How a number is written. Its bytes do not tell. -/
inductive Kind
  | natural
  | integer
  deriving DecidableEq, Repr

/-- How a number is written. -/
def Number.kind : Number → Kind
  | .natural _ => .natural
  | .integer _ => .integer

/-- Reads a number of a kind from the front of a byte string. -/
def Kind.decode : Kind → Bytes → Except Error (Number × Nat)
  | .natural, bytes => (decodeNatural bytes).map fun (n, used) => (.natural n, used)
  | .integer, bytes => (decodeInteger bytes).map fun (z, used) => (.integer z, used)

/-- A number is read by the reader of its kind, which takes exactly its bytes. -/
theorem Kind.decode_append (number : Number) (rest : Bytes) :
    number.kind.decode (number.encode ++ rest) = .ok (number, number.encode.length) := by
  cases number with
  | natural n =>
    rw [Number.kind, Number.encode, decode, decodeNatural_append]
    rfl
  | integer z =>
    rw [Number.kind, Number.encode, decode, decodeInteger_append]
    rfl

/-! ### Streams -/

/-- Appends a number to a buffer. -/
def Number.write {ε : Type} (number : Number) : Writer ε := .put number.encode

/-- Reads a number of each kind in turn, the first of them at an offset of the stream and each
other one where the one before it ends. The offset at which the last one ends comes along. -/
def readStream (stream : Bytes) : (offset : Nat) → List Kind → Except Error (List Number × Nat)
  | offset, [] => .ok ([], offset)
  | offset, kind :: kinds => do
    let (number, used) ← kind.decode (stream.drop offset)
    let (numbers, last) ← readStream stream (offset + used) kinds
    pure (number :: numbers, last)

/-- Numbers are read back from behind any bytes and in front of any others, and take exactly the
bytes that they are written as. -/
theorem readStream_append (before rest : Bytes) (numbers : List Number) :
    readStream (before ++ numbers.flatMap Number.encode ++ rest) before.length
        (numbers.map Number.kind) =
      .ok (numbers, (before ++ numbers.flatMap Number.encode).length) := by
  induction numbers generalizing before with
  | nil => simp [readStream]
  | cons number numbers ih =>
    -- What is left of the stream begins with the number; its bytes belong to what is read then.
    have hdrop : (before ++ (number :: numbers).flatMap Number.encode ++ rest).drop before.length =
        number.encode ++ (numbers.flatMap Number.encode ++ rest) := by
      rw [List.append_assoc, List.drop_left, List.flatMap_cons, List.append_assoc]
    have hstream : before ++ (number :: numbers).flatMap Number.encode ++ rest =
        before ++ number.encode ++ numbers.flatMap Number.encode ++ rest := by
      rw [List.flatMap_cons, ← List.append_assoc before]
    have hlater := ih (before ++ number.encode)
    rw [List.length_append] at hlater
    rw [List.map_cons, readStream, hdrop, Kind.decode_append, Outcome.ok_bind]
    dsimp only
    rw [hstream, hlater, Outcome.ok_bind, List.flatMap_cons, ← List.append_assoc]
    rfl

/-- Numbers written in turn are appended to the buffer one after the other. -/
theorem forEach_write {ε : Type} (numbers : List Number) (buffer : Buffer) :
    (Writer.forEach Number.write numbers : Writer ε) buffer =
      (.ok (), buffer ++ numbers.flatMap Number.encode) := by
  have hwrite (number : Number) : (number.write : Writer ε).Denotes (.ok number.encode) :=
    Writer.denotes_put _
  have hall := Writer.Denotes.forEach hwrite numbers
  rw [Layout.each_ok] at hall
  exact hall buffer

/-- Numbers of both kinds, appended to any buffer, are read back in order from where the buffer
stood, and the last of them ends where the buffer does; whatever follows is not looked at. In
particular each number alone is read back in front of anything, and takes all of its bytes. A
number of sixty-four bits is written as the natural number that it is, also where it is an amount
of an operation. -/
theorem stream_recovered (buffer : Buffer) (numbers : List Number) (rest : Bytes) :
    (∃ written : Buffer,
      (Writer.forEach Number.write numbers : Writer Error) buffer = (.ok (), written) ∧
        written.toList = buffer.toList ++ numbers.flatMap Number.encode ∧
        readStream (written.toList ++ rest) buffer.size (numbers.map Number.kind) =
          .ok (numbers, written.size)) ∧
      (∀ n, decodeNatural (encodeNatural n ++ rest) = .ok (n, (encodeNatural n).length)) ∧
      (∀ z, decodeInteger (encodeInteger z ++ rest) = .ok (z, (encodeInteger z).length)) ∧
      ∀ n, encodeUInt64 n = encodeNatural n.toNat ∧ forgeAmount n = encodeUInt64 n ∧
        decodeNatural (encodeUInt64 n ++ rest) = .ok (n.toNat, (encodeUInt64 n).length) := by
  have hlist : (buffer ++ numbers.flatMap Number.encode).toList =
      buffer.toList ++ numbers.flatMap Number.encode := Array.toList_appendList ..
  refine ⟨⟨_, forEach_write numbers buffer, hlist, ?_⟩, fun n => decodeNatural_append n rest,
    fun z => decodeInteger_append z rest, fun n => ⟨rfl, rfl, decodeNatural_append n.toNat rest⟩⟩
  rw [← Array.length_toList, ← Array.length_toList, hlist]
  exact readStream_append buffer.toList rest numbers

end TezosWallet.Zarith
