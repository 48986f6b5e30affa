/-!
# Numerals

Two grammars for whole numbers are in use. A *plain* numeral is an optional sign followed by
decimal digits. A *spaced* numeral may also carry underscores between or after its digits, as in
`1_000`, and takes a plus sign only where no minus sign stands.

## Main definitions

* `Numeral.natural?`, `Numeral.integer?` — plain numerals.
* `Numeral.spacedNatural?`, `Numeral.spacedInteger?` — spaced numerals.
-/

namespace TezosWallet.Numeral

/-- Whether a character is one of the ten ASCII digits. -/
def isDigit (c : Char) : Bool := '0' ≤ c && c ≤ '9'

/-- The number that a digit stands for. -/
def digitValue (c : Char) : Nat := c.toNat - '0'.toNat

/-- The number written by a list of digits, most significant first. -/
def value (digits : List Char) : Nat := digits.foldl (fun n c => 10 * n + digitValue c) 0

/-- One or more ASCII digits. -/
def digits? (cs : List Char) : Option Nat :=
  if !cs.isEmpty && cs.all isDigit then some (value cs) else none

/-- A plain natural numeral: an optional `+`, then digits. -/
def natural? (text : String) : Option Nat :=
  match text.toList with
  | '+' :: cs => digits? cs
  | cs => digits? cs

/-- A plain integer numeral: an optional `+` or `-`, then digits. -/
def integer? (text : String) : Option Int :=
  match text.toList with
  | '+' :: cs => (digits? cs).map Int.ofNat
  | '-' :: cs => (digits? cs).map fun n => -Int.ofNat n
  | cs => (digits? cs).map Int.ofNat

/-- A digit, then digits and underscores in any order. -/
def spacedDigits? (cs : List Char) : Option Nat :=
  if cs.head? == some '_' then none else digits? (cs.filter (· != '_'))

/-- A spaced natural numeral: an optional `+`, then spaced digits. -/
def spacedNatural? (text : String) : Option Nat :=
  match text.toList with
  | '+' :: cs => spacedDigits? cs
  | cs => spacedDigits? cs

/-- A spaced integer numeral: a `-` and spaced digits, or a spaced natural numeral. -/
def spacedInteger? (text : String) : Option Int :=
  match text.toList with
  | '-' :: cs => (spacedDigits? cs).map fun n => -Int.ofNat n
  | '+' :: cs => (spacedDigits? cs).map Int.ofNat
  | cs => (spacedDigits? cs).map Int.ofNat

end TezosWallet.Numeral
