import TezosWallet.Json.Basic
import TezosWallet.Text.Numeral

/-!
# Reading JSON

Values are read from a list of characters; each reader returns what it read and the characters
after it. The number of characters of the whole text bounds every loop. Arrays and objects may nest
127 deep. A number's significand is what fits sixty-four
bits of its digits, and a double is that significand scaled by one power of ten at a time.

## Main definitions

* `Json.parse?` — the value that a text writes, if it is JSON.
* `Json.Literal` — a number as written; `Json.Literal.number?` is its value.
-/

namespace TezosWallet.Json

/-- A reader of values from the front of a character list. -/
abbrev Reader (α : Type) := List Char → Option (α × List Char)

/-- Whether a character may stand between tokens. -/
def isSpace (c : Char) : Bool := c == ' ' || c == '\n' || c == '\t' || c == '\r'

/-- The characters after leading spaces. -/
def skipSpace (cs : List Char) : List Char := cs.dropWhile isSpace

/-- The value of a hexadecimal digit. -/
def hexDigit? (c : Char) : Option Nat :=
  if '0' ≤ c ∧ c ≤ '9' then some (c.toNat - 48)
  else if 'a' ≤ c ∧ c ≤ 'f' then some (c.toNat - 87)
  else if 'A' ≤ c ∧ c ≤ 'F' then some (c.toNat - 55)
  else none

/-- The value of four hexadecimal digits. -/
def hexQuad? : Reader Nat
  | a :: b :: c :: d :: rest => do
    let w ← hexDigit? a
    let x ← hexDigit? b
    let y ← hexDigit? c
    let z ← hexDigit? d
    some (4096 * w + 256 * x + 16 * y + z, rest)
  | _ => none

/-- The character of an escape by number, after its `u`. A high surrogate needs a low one after it,
and a low surrogate may not stand alone. -/
def unicodeEscape? (cs : List Char) : Option (Char × List Char) := do
  let (high, rest) ← hexQuad? cs
  if 0xDC00 ≤ high ∧ high ≤ 0xDFFF then none
  else if 0xD800 ≤ high ∧ high ≤ 0xDBFF then
    match rest with
    | '\\' :: 'u' :: rest => do
      let (low, rest) ← hexQuad? rest
      if 0xDC00 ≤ low ∧ low ≤ 0xDFFF then
        some (Char.ofNat (0x10000 + (high - 0xD800) * 0x400 + (low - 0xDC00)), rest)
      else none
    | _ => none
  else some (Char.ofNat high, rest)

/-- The character of an escape, after its backslash. -/
def escape? : Reader Char
  | '"' :: rest => some ('"', rest)
  | '\\' :: rest => some ('\\', rest)
  | '/' :: rest => some ('/', rest)
  | 'b' :: rest => some ('\x08', rest)
  | 'f' :: rest => some ('\x0c', rest)
  | 'n' :: rest => some ('\n', rest)
  | 'r' :: rest => some ('\r', rest)
  | 't' :: rest => some ('\t', rest)
  | 'u' :: rest => unicodeEscape? rest
  | _ => none

/-- The characters of a string after its opening quotation mark, at most `fuel` of them. -/
def stringBody? : (fuel : Nat) → Reader (List Char)
  | 0, _ => none
  | fuel + 1, cs =>
    match cs with
    | [] => none
    | '"' :: rest => some ([], rest)
    | '\\' :: rest => do
      let (c, rest) ← escape? rest
      let (tail, rest) ← stringBody? fuel rest
      some (c :: tail, rest)
    | c :: rest =>
      if c.toNat < 0x20 then none
      else do
        let (tail, rest) ← stringBody? fuel rest
        some (c :: tail, rest)

/-- A string after its opening quotation mark. -/
def string? (limit : Nat) (cs : List Char) : Option (String × List Char) := do
  let (body, rest) ← stringBody? limit cs
  some (String.ofList body, rest)

/-- A number as written. -/
structure Literal where
  negative : Bool
  /-- The digits before the point. -/
  whole : List Char
  /-- The digits after the point, where there is one. -/
  fraction : Option (List Char)
  /-- The exponent, where there is one. -/
  exponent : Option Int

/-- The digits at the front. -/
def digits (cs : List Char) : List Char × List Char :=
  (cs.takeWhile Numeral.isDigit, cs.dropWhile Numeral.isDigit)

/-- The exponent after its letter: an optional sign and at least one digit. -/
def exponentPart? (cs : List Char) : Option (Int × List Char) :=
  let (negative, cs) := match cs with
    | '-' :: rest => (true, rest)
    | '+' :: rest => (false, rest)
    | cs => (false, cs)
  match digits cs with
  | ([], _) => none
  | (ds, rest) =>
    let n := (Numeral.value ds : Int)
    some (if negative then -n else n, rest)

/-- A number as written: digits without a needless zero in front, and optional parts. -/
def literal? (cs : List Char) : Option (Literal × List Char) := do
  let (negative, cs) := match cs with
    | '-' :: rest => (true, rest)
    | cs => (false, cs)
  let (whole, cs) ← match cs with
    | '0' :: rest => if rest.head?.any Numeral.isDigit then none else some (['0'], rest)
    | cs => match digits cs with
      | ([], _) => none
      | read => some read
  let (fraction, cs) ← match cs with
    | '.' :: rest => match digits rest with
      | ([], _) => none
      | (ds, rest) => some (some ds, rest)
    | cs => some (none, cs)
  let (exponent, cs) ← match cs with
    | 'e' :: rest | 'E' :: rest => do
      let (e, rest) ← exponentPart? rest
      some (some e, rest)
    | cs => some (none, cs)
  some (⟨negative, whole, fraction, exponent⟩, cs)

/-- Takes digits into a significand while it stays below `2 ^ 64`, and gives the digits left. -/
def gather (significand : Nat) : List Char → Nat × List Char
  | [] => (significand, [])
  | c :: rest =>
    let next := 10 * significand + Numeral.digitValue c
    if next < Nat.pow 2 64 then gather next rest else (significand, c :: rest)

/-- A power of ten as a double. -/
def powerOfTen (n : Nat) : Float := Float.ofScientific 1 false n

/-- A double times `10 ^ exponent`. A result beyond all doubles is refused, and one below them is
zero. Exponents below `-308` are taken in steps, at most `fuel` of them. -/
def scale? : (fuel : Nat) → (x : Float) → (exponent : Int) → Option Float
  | fuel, x, exponent =>
    if exponent.natAbs ≤ 308 then
      if exponent ≥ 0 then
        let y := x * powerOfTen exponent.natAbs
        if y.isInf then none else some y
      else some (x / powerOfTen exponent.natAbs)
    else if x == 0 then some x
    else if exponent > 0 then none
    else match fuel with
      | 0 => some 0
      | fuel + 1 => scale? fuel (x / powerOfTen 308) (exponent + 308)

/-- The double of a number as written. Digits that do not fit the significand count for their place
before the point and not at all after it. -/
def Literal.double? (n : Literal) : Option Float := do
  let (significand, left) := gather 0 n.whole
  let fraction := n.fraction.getD []
  let (significand, leftFraction) := gather significand fraction
  let places : Int := left.length - (fraction.length - leftFraction.length : Nat)
  let x ← scale? 4 (UInt64.ofNat significand).toFloat (places + n.exponent.getD 0)
  some (if n.negative then -x else x)

/-- The value of a number as written. Minus zero is a double. -/
def Literal.number? (n : Literal) : Option Number :=
  let value := Numeral.value n.whole
  if n.fraction.isNone ∧ n.exponent.isNone ∧ ¬ n.negative ∧ value < Nat.pow 2 64 then
    some (.integer value)
  else if n.fraction.isNone ∧ n.exponent.isNone ∧ n.negative ∧ 0 < value ∧ value ≤ Nat.pow 2 63 then
    some (.integer (-value))
  else n.double?.map .double

/-- The items of an array after its bracket and first space, at most `fuel` of them. -/
def items? (item : Reader Json) : (fuel : Nat) → Reader (List Json)
  | 0, _ => none
  | fuel + 1, cs => do
    let (value, rest) ← item cs
    match skipSpace rest with
    | ',' :: rest => do
      let (values, rest) ← items? item fuel rest
      some (value :: values, rest)
    | ']' :: rest => some ([value], rest)
    | _ => none

/-- A member of an object: a string, a colon and a value. -/
def member? (limit : Nat) (item : Reader Json) (cs : List Char) :
    Option ((String × Json) × List Char) :=
  match skipSpace cs with
  | '"' :: rest => do
    let (key, rest) ← string? limit rest
    match skipSpace rest with
    | ':' :: rest => do
      let (value, rest) ← item rest
      some ((key, value), rest)
    | _ => none
  | _ => none

/-- The members of an object after its brace, at most `fuel` of them. -/
def members? (limit : Nat) (item : Reader Json) : (fuel : Nat) → Reader (List (String × Json))
  | 0, _ => none
  | fuel + 1, cs => do
    let (entry, rest) ← member? limit item cs
    match skipSpace rest with
    | ',' :: rest => do
      let (entries, rest) ← members? limit item fuel rest
      some (entry :: entries, rest)
    | '\x7d' :: rest => some ([entry], rest)
    | _ => none

/-- An array after its bracket. -/
def array? (limit : Nat) (item : Reader Json) (cs : List Char) : Option (Json × List Char) :=
  match skipSpace cs with
  | ']' :: rest => some (.array [], rest)
  | cs => do
    let (values, rest) ← items? item limit cs
    some (.array values, rest)

/-- An object after its brace. -/
def object? (limit : Nat) (item : Reader Json) (cs : List Char) : Option (Json × List Char) :=
  match skipSpace cs with
  | '\x7d' :: rest => some (object [], rest)
  | cs => do
    let (entries, rest) ← members? limit item limit cs
    some (object entries, rest)

/-- A value in a text of at most `limit` characters, in which arrays and objects nest at most
`depth` deep. -/
def value? (limit : Nat) : (depth : Nat) → Reader Json
  | depth, cs =>
    match skipSpace cs with
    | 'n' :: 'u' :: 'l' :: 'l' :: rest => some (.null, rest)
    | 't' :: 'r' :: 'u' :: 'e' :: rest => some (.bool true, rest)
    | 'f' :: 'a' :: 'l' :: 's' :: 'e' :: rest => some (.bool false, rest)
    | '"' :: rest => do
      let (text, rest) ← string? limit rest
      some (.string text, rest)
    | '[' :: rest =>
      match depth with
      | 0 => none
      | depth + 1 => array? limit (value? limit depth) rest
    | '\x7b' :: rest =>
      match depth with
      | 0 => none
      | depth + 1 => object? limit (value? limit depth) rest
    | cs => do
      let (n, rest) ← literal? cs
      let value ← n.number?
      some (.number value, rest)

/-- How deep arrays and objects may nest. -/
def maxDepth : Nat := 127

/-- The value that a text writes, if it is JSON. -/
def parse? (text : String) : Option Json := do
  let (value, rest) ← value? text.length maxDepth text.toList
  if (skipSpace rest).isEmpty then some value else none

end TezosWallet.Json
