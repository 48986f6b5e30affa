import TezosWallet.Bytes
import TezosWallet.Arithmetic
import TezosWallet.Text.Literal

/-!
# Base58 texts

A byte string is read as one big-endian number and written in base 58, with an alphabet that
leaves out the look-alikes `0`, `O`, `I` and `l`. Leading zero bytes, which the number does not
show, are written as one `1` each.

## Main definitions

* `Base58.encode`, `Base58.decode` — byte strings to texts and back.
* `Base58.Error` — the first character of a text that is no digit.
-/

namespace TezosWallet.Base58

/-- The digits in order of value. -/
def alphabet : List Char := "123456789ABCDEFGHJKLMNPQRSTUVWXYZabcdefghijkmnopqrstuvwxyz".toList

/-- Why a text is not written in base 58. -/
inductive Error
  /-- A byte outside ASCII, at the given index. -/
  | notAscii (index : Nat)
  /-- An ASCII byte that is no digit, at the given index. -/
  | invalidDigit (byte : UInt8) (index : Nat)
  deriving DecidableEq, Repr

/-- The wording of an error. -/
def Error.message : Error → String
  | .notAscii index => s!"provided string contained non-ascii character starting at byte {index}"
  | .invalidDigit byte index =>
    s!"provided string contained invalid character {Text.byteLiteral byte} at byte {index}"

/-- The character of a digit. -/
def digitChar (d : Nat) : Char := alphabet.getD d '1'

/-- The base-58 form of a byte string. -/
def encode (bytes : Bytes) : String :=
  let zeros := bytes.takeWhile (· == 0)
  String.ofList (List.replicate zeros.length '1' ++
    ((Radix.digits 58 (Bytes.toNatBE bytes)).map digitChar).reverse)

/-- The digit written by the byte at an index. -/
def digit (b : UInt8) (index : Nat) : Except Error Nat :=
  if b.toNat ≥ 128 then .error (.notAscii index)
  else match alphabet.idxOf? (Char.ofNat b.toNat) with
    | some d => .ok d
    | none => .error (.invalidDigit b index)

/-- The digits written by a text whose first byte stands at `index`, in reading order. -/
def digitsFrom (index : Nat) : Bytes → Except Error (List Nat)
  | [] => pure []
  | b :: rest => do
    let d ← digit b index
    let ds ← digitsFrom (index + 1) rest
    pure (d :: ds)

/-- The byte string of a list of base-58 digits in reading order. -/
def ofDigits (ds : List Nat) : Bytes :=
  let zeros := ds.takeWhile (· == 0)
  List.replicate zeros.length 0 ++
    ((Radix.digits 256 (Radix.ofDigits 58 ds.reverse)).map UInt8.ofNat).reverse

/-- The byte string that a text writes in base 58. -/
def decode (text : String) : Except Error Bytes := do
  let ds ← digitsFrom 0 (Bytes.utf8 text)
  pure (ofDigits ds)

end TezosWallet.Base58
