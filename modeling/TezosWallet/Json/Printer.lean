import TezosWallet.Decimal.Shortest
import TezosWallet.Json.Basic
import TezosWallet.Text.Literal

/-!
# Printing JSON

Values are printed in one line without blanks. Strings escape quotation marks, backslashes and
control characters only. A double is printed with the fewest digits that read back: positional
with at least one decimal from `1e-5` up to below `1e16`, otherwise with a signed exponent.

## Main definitions

* `Json.render` — the one-line form of a value.
* `Json.renderTagged` — the form that names the type of each value.
-/

namespace TezosWallet.Json

/-- The escape of a control character: four hexadecimal digits. -/
def escapeControl (c : Char) : String :=
  let digits := Text.hexNumeral c.toNat
  "\\u" ++ String.ofList (List.replicate (4 - digits.length) '0') ++ digits

/-- A character inside a string. -/
def escapeChar (c : Char) : String :=
  if c == '"' then "\\\""
  else if c == '\\' then "\\\\"
  else if c == '\x08' then "\\b"
  else if c == '\x0c' then "\\f"
  else if c == '\n' then "\\n"
  else if c == '\r' then "\\r"
  else if c == '\t' then "\\t"
  else if c.toNat < 0x20 then escapeControl c
  else c.toString

/-- A string between quotation marks. -/
def quote (text : String) : String := "\"" ++ String.join (text.toList.map escapeChar) ++ "\""

/-- A number of zeros. -/
def zeros (n : Nat) : String := String.ofList (List.replicate n '0')

/-- The digits of a decimal, first `whole` of them before the point. -/
def pointed (digits : String) (whole : Nat) : String :=
  String.ofList (digits.toList.take whole) ++ "." ++ String.ofList (digits.toList.drop whole)

/-- A positive decimal as text. -/
def renderDecimal (point : Decimal.Point) : String :=
  let digits := toString point.coefficient
  let leading := point.exponent + digits.length - 1
  if -5 ≤ leading ∧ leading ≤ 15 then
    if point.exponent ≥ 0 then digits ++ zeros point.exponent.toNat ++ ".0"
    else if leading ≥ 0 then pointed digits (leading.toNat + 1)
    else "0." ++ zeros (-leading - 1).toNat ++ digits
  else
    let mantissa := if digits.length = 1 then digits else pointed digits 1
    mantissa ++ (if leading < 0 then "e-" else "e+") ++ toString leading.natAbs

/-- A finite double as text. -/
def renderDouble (value : Float) : String :=
  let bits := value.toBits.toNat
  let sign := if bits / Nat.pow 2 63 = 1 then "-" else ""
  let magnitude := bits % Nat.pow 2 63
  if magnitude = 0 then sign ++ "0.0"
  else sign ++ renderDecimal (Decimal.shortest (Decimal.binaryOf magnitude))

/-- A number as text. -/
def Number.render : Number → String
  | .integer value => toString value
  | .double value => renderDouble value

mutual

/-- The one-line form of a value. -/
def render : Json → String
  | null => "null"
  | bool value => if value then "true" else "false"
  | number value => value.render
  | string value => quote value
  | array items => "[" ++ renderItems items ++ "]"
  | members entries => "\x7b" ++ renderMembers entries ++ "\x7d"

/-- The items of an array, with commas between them. -/
def renderItems : List Json → String
  | [] => ""
  | [item] => render item
  | item :: rest => render item ++ "," ++ renderItems rest

/-- The members of an object, with commas between them. -/
def renderMembers : List (String × Json) → String
  | [] => ""
  | [(key, value)] => quote key ++ ":" ++ render value
  | (key, value) :: rest => quote key ++ ":" ++ render value ++ "," ++ renderMembers rest

end

mutual

/-- The form of a value that names its type. -/
def renderTagged : Json → String
  | null => "Null"
  | bool value => if value then "Bool(true)" else "Bool(false)"
  | number value => "Number(" ++ value.render ++ ")"
  | string value => "String(" ++ Text.literal value ++ ")"
  | array items => "Array [" ++ renderTaggedItems items ++ "]"
  | members entries => "Object \x7b" ++ renderTaggedMembers entries ++ "\x7d"

/-- The items of an array, each naming its type. -/
def renderTaggedItems : List Json → String
  | [] => ""
  | [item] => renderTagged item
  | item :: rest => renderTagged item ++ ", " ++ renderTaggedItems rest

/-- The members of an object, each value naming its type. -/
def renderTaggedMembers : List (String × Json) → String
  | [] => ""
  | [(key, value)] => Text.literal key ++ ": " ++ renderTagged value
  | (key, value) :: rest =>
    Text.literal key ++ ": " ++ renderTagged value ++ ", " ++ renderTaggedMembers rest

end

/-- The members of an object between braces, each value naming its type. -/
def renderTaggedObject (entries : List (String × Json)) : String :=
  "\x7b" ++ renderTaggedMembers entries ++ "\x7d"

end TezosWallet.Json
