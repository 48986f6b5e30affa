import TezosWallet.Bytes

/-!
# Base64 texts

Three bytes are four symbols of the standard alphabet. The last group of a text is completed by
`=` signs, which must be present, and the bits that it leaves over must be zero, so that a byte
string has one written form.

## Main definitions

* `Base64.encode`, `Base64.decode` — byte strings to texts and back.
* `Base64.Error` — the first fault of a text.
-/

namespace TezosWallet.Base64

/-- Why a text is not the base64 form of a byte string. -/
inductive Error
  /-- A byte that stands where no such symbol may. -/
  | invalidSymbol (byte : UInt8) (offset : Nat)
  /-- The last group has fewer than two symbols. -/
  | invalidLength (length : Nat)
  /-- The last group is not completed to four. -/
  | invalidPadding
  /-- The last symbol carries bits beyond the last byte. -/
  | invalidLastSymbol (byte : UInt8) (offset : Nat)
  deriving DecidableEq, Repr

/-- The wording of an error. -/
def Error.message : Error → String
  | .invalidSymbol byte offset => s!"Invalid symbol {byte.toNat}, offset {offset}."
  | .invalidLength length => s!"Invalid input length: {length}"
  | .invalidPadding => "Invalid padding"
  | .invalidLastSymbol byte offset => s!"Invalid last symbol {byte.toNat}, offset {offset}."

/-- The symbol of a number below sixty-four. -/
def symbol (n : Nat) : Char :=
  Char.ofNat (if n < 26 then 65 + n else if n < 52 then 71 + n else if n < 62 then n - 4
    else if n = 62 then 43 else 47)

/-- The number of a symbol given as an ASCII byte. -/
def symbolValue? (b : UInt8) : Option Nat :=
  let n := b.toNat
  if 65 ≤ n ∧ n ≤ 90 then some (n - 65)
  else if 97 ≤ n ∧ n ≤ 122 then some (n - 71)
  else if 48 ≤ n ∧ n ≤ 57 then some (n + 4)
  else if n = 43 then some 62
  else if n = 47 then some 63
  else none

/-- The symbols of a byte string, padded to a multiple of four. -/
def encodeChars : Bytes → List Char
  | [] => []
  | [a] => [symbol (a.toNat / 4), symbol (a.toNat % 4 * 16), '=', '=']
  | [a, b] =>
    [symbol (a.toNat / 4), symbol (a.toNat % 4 * 16 + b.toNat / 16), symbol (b.toNat % 16 * 4), '=']
  | a :: b :: c :: rest =>
    symbol (a.toNat / 4) :: symbol (a.toNat % 4 * 16 + b.toNat / 16) ::
      symbol (b.toNat % 16 * 4 + c.toNat / 64) :: symbol (c.toNat % 64) :: encodeChars rest

/-- The base64 form of a byte string. -/
def encode (bytes : Bytes) : String := String.ofList (encodeChars bytes)

/-- The byte of the `=` sign. -/
def pad : UInt8 := 61

/-- The value of the symbol at an offset. -/
def symbolAt (b : UInt8) (offset : Nat) : Except Error Nat :=
  match symbolValue? b with
  | some n => .ok n
  | none => .error (.invalidSymbol b offset)

/-- What has been read of the last group. -/
structure LastGroup where
  /-- The symbols so far, the last one first, each with its byte. -/
  symbols : List (UInt8 × Nat) := []
  /-- The number of `=` signs so far. -/
  pads : Nat := 0

/-- Reads one byte of the last group, which begins at `start`. -/
def LastGroup.read (start : Nat) (group : LastGroup) (b : UInt8) : Except Error LastGroup :=
  let position := group.symbols.length + group.pads
  if b = pad then
    if position < 2 then .error (.invalidSymbol pad (start + position))
    else .ok { group with pads := group.pads + 1 }
  else if group.pads ≠ 0 then .error (.invalidSymbol pad (start + group.symbols.length))
  else do
    let n ← symbolAt b (start + position)
    pure { group with symbols := (b, n) :: group.symbols }

/-- The bytes of the last group, which begins at `start`. -/
def LastGroup.finish (start : Nat) (group : LastGroup) : Except Error Bytes :=
  let count := group.symbols.length
  if count < 2 then .error (.invalidLength (start + count))
  else if (count + group.pads) % 4 ≠ 0 then .error .invalidPadding
  else match group.symbols with
    | [(_, d), (_, c), (_, b), (_, a)] =>
      .ok [UInt8.ofNat (4 * a + b / 16), UInt8.ofNat (b % 16 * 16 + c / 4),
        UInt8.ofNat (c % 4 * 64 + d)]
    | [(byte, c), (_, b), (_, a)] =>
      if c % 4 ≠ 0 then .error (.invalidLastSymbol byte (start + 2))
      else .ok [UInt8.ofNat (4 * a + b / 16), UInt8.ofNat (b % 16 * 16 + c / 4)]
    | [(byte, b), (_, a)] =>
      if b % 16 ≠ 0 then .error (.invalidLastSymbol byte (start + 1))
      else .ok [UInt8.ofNat (4 * a + b / 16)]
    | _ => .error .invalidPadding

/-- Reads the last group of a text, one to four bytes from offset `start` on. -/
def decodeLast (start : Nat) (bytes : Bytes) : Except Error Bytes := do
  let group ← bytes.foldlM (LastGroup.read start) {}
  group.finish start

/-- Reads groups from offset `start` on: all but the last are four symbols without padding. -/
def decodeGroups (start : Nat) : Bytes → Except Error Bytes
  | [] => pure []
  | a :: b :: c :: d :: e :: rest => do
    let w ← symbolAt a start
    let x ← symbolAt b (start + 1)
    let y ← symbolAt c (start + 2)
    let z ← symbolAt d (start + 3)
    let tail ← decodeGroups (start + 4) (e :: rest)
    pure (UInt8.ofNat (4 * w + x / 16) :: UInt8.ofNat (x % 16 * 16 + y / 4) ::
      UInt8.ofNat (y % 4 * 64 + z) :: tail)
  | last => decodeLast start last

/-- The byte string that a text writes in base64. A lone symbol after whole groups is looked at
before the groups are. -/
def decode (text : String) : Except Error Bytes :=
  let bytes := Bytes.utf8 text
  match bytes.getLast? with
  | some last =>
    if bytes.length % 4 = 1 ∧ last ≠ pad ∧ symbolValue? last = none then
      .error (.invalidSymbol last (bytes.length - 1))
    else decodeGroups 0 bytes
  | none => .ok []

end TezosWallet.Base64
