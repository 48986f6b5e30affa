import TezosWallet.Bytes
import TezosWallet.Text.Literal

/-!
# Hexadecimal texts

A byte is two hexadecimal digits, high half first. Writing uses lower case; reading takes either.

## Main definitions

* `Hex.encode`, `Hex.decode` — byte strings to texts and back.
* `Hex.Error` — why a text is no hexadecimal byte string; an odd length is noticed first.
-/

namespace TezosWallet.Hex

/-- Why a text is not the hexadecimal form of a byte string. -/
inductive Error
  /-- The text has an odd number of bytes. -/
  | oddLength
  /-- A byte of the text, at the given index, is no hexadecimal digit. -/
  | invalidDigit (byte : UInt8) (index : Nat)
  deriving DecidableEq, Repr

/-- The wording of an error. -/
def Error.message : Error → String
  | .oddLength => "Odd number of digits"
  | .invalidDigit byte index =>
    s!"Invalid character {Text.byteLiteral byte} at position {index}"

/-- The digit character of a number below sixteen. -/
def digitChar (n : Nat) : Char := Char.ofNat (if n < 10 then 48 + n else 87 + n)

/-- The two digits of a byte. -/
def encodeByte (b : UInt8) : List Char := [digitChar (b.toNat / 16), digitChar (b.toNat % 16)]

/-- The hexadecimal form of a byte string, in lower case. -/
def encode (bytes : Bytes) : String := String.ofList (bytes.flatMap encodeByte)

/-- The value of a digit character given as an ASCII byte. -/
def digitValue? (b : UInt8) : Option Nat :=
  let n := b.toNat
  if 48 ≤ n ∧ n ≤ 57 then some (n - 48)
  else if 97 ≤ n ∧ n ≤ 102 then some (n - 87)
  else if 65 ≤ n ∧ n ≤ 70 then some (n - 55)
  else none

/-- The value of the digit at an index. -/
def digit (b : UInt8) (index : Nat) : Except Error Nat :=
  match digitValue? b with
  | some n => .ok n
  | none => .error (.invalidDigit b index)

/-- Reads pairs of digits, the first of them standing at `index`. -/
def decodePairs (index : Nat) : Bytes → Except Error Bytes
  | high :: low :: rest => do
    let h ← digit high index
    let l ← digit low (index + 1)
    let tail ← decodePairs (index + 2) rest
    pure (UInt8.ofNat (16 * h + l) :: tail)
  | _ => pure []

/-- The byte string that a text writes in hexadecimal. -/
def decode (text : String) : Except Error Bytes :=
  let bytes := Bytes.utf8 text
  if bytes.length % 2 = 0 then decodePairs 0 bytes else .error .oddLength

end TezosWallet.Hex
