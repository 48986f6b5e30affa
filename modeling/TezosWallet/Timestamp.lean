import TezosWallet.Bytes

/-!
# Timestamps

A timestamp is written as a date, a time of day and an offset from universal time, as in
`2019-09-06T15:08:29Z`. The date is one of the Gregorian calendar extended backwards, with years
from 0000 to 9999. Leap seconds are written as second 60 and belong to the second before.

## Main definitions

* `Timestamp` — seconds since the start of 1970 in universal time, and what exceeds them.
* `Timestamp.ofText` — reads a timestamp.
* `TimestampError` — why a text is no timestamp.
-/

namespace TezosWallet

/-- A moment in time. -/
structure Timestamp where
  /-- Whole seconds since the start of 1970, rounded towards the past. -/
  seconds : Int64
  /-- Nanoseconds after the whole second; a leap second makes them exceed a second. -/
  nanoseconds : Nat
  deriving DecidableEq, Repr

/-- Why a text is no timestamp. -/
inductive TimestampError
  /-- A character stands where it may not. -/
  | invalid
  /-- The text ends too early. -/
  | tooShort
  /-- A number is out of its range. -/
  | outOfRange
  /-- The text goes on after the timestamp. -/
  | trailing
  deriving DecidableEq, Repr

/-- The wording of an error. -/
def TimestampError.message : TimestampError → String
  | .invalid => "input contains invalid characters"
  | .tooShort => "premature end of input"
  | .outOfRange => "input is out of range"
  | .trailing => "trailing input"

namespace Timestamp

/-- Whether a byte is an ASCII digit. -/
def isDigit (b : UInt8) : Bool := 48 ≤ b.toNat && b.toNat ≤ 57

/-- The number written by digits. -/
def number (digits : Bytes) : Nat := digits.foldl (fun n b => 10 * n + (b.toNat - 48)) 0

/-- Whether a year has a leap day. -/
def isLeap (year : Nat) : Bool := year % 4 == 0 && (year % 100 != 0 || year % 400 == 0)

/-- The days of the months of a year. -/
def monthLengths (year : Nat) : List Nat :=
  [31, if isLeap year then 29 else 28, 31, 30, 31, 30, 31, 31, 30, 31, 30, 31]

/-- The days from the start of year zero to the start of a year. -/
def daysBeforeYear (year : Nat) : Nat :=
  365 * year + (year + 3) / 4 - (year + 99) / 100 + (year + 399) / 400

/-- The days from the start of year zero to the start of 1970. -/
def epochDays : Nat := 719528

/-- The days from the start of 1970 to a date, if the date exists. -/
def daysOf? (year month day : Nat) : Option Int :=
  let lengths := monthLengths year
  match (lengths.drop (month - 1)).head? with
  | some length =>
    if 1 ≤ month ∧ 1 ≤ day ∧ day ≤ length then
      let before := (lengths.take (month - 1)).foldl Nat.add 0
      some (daysBeforeYear year + before + (day - 1) - epochDays : Int)
    else none
  | none => none

/-- The date in the form `YYYY-MM-DD`, as days from the start of 1970. -/
def readDate (bytes : Bytes) : Except TimestampError Int :=
  match bytes with
  | [y₁, y₂, y₃, y₄, dash₁, m₁, m₂, dash₂, d₁, d₂] =>
    if dash₁ = 45 ∧ dash₂ = 45 ∧ [y₁, y₂, y₃, y₄, m₁, m₂, d₁, d₂].all isDigit then
      (daysOf? (number [y₁, y₂, y₃, y₄]) (number [m₁, m₂]) (number [d₁, d₂])).elim
        (.error .outOfRange) .ok
    else .error .invalid
  | _ => .error .invalid

/-- The time in the form `HH:MM:SS`, as three numbers that are not yet checked. -/
def readTime (bytes : Bytes) : Except TimestampError (Nat × Nat × Nat) :=
  match bytes with
  | [h₁, h₂, colon₁, m₁, m₂, colon₂, s₁, s₂] =>
    if colon₁ = 58 ∧ colon₂ = 58 ∧ [h₁, h₂, m₁, m₂, s₁, s₂].all isDigit then
      .ok (number [h₁, h₂], number [m₁, m₂], number [s₁, s₂])
    else .error .invalid
  | _ => .error .invalid

/-- The nanoseconds of a fraction, where there is one, and the bytes after it. -/
def readFraction (bytes : Bytes) : Except TimestampError (Nat × Bytes) :=
  match bytes with
  | 46 :: rest =>
    match rest with
    | [] => .error .tooShort
    | b :: _ =>
      if isDigit b then
        let digits := (rest.takeWhile isDigit).take 9
        .ok (number digits * Nat.pow 10 (9 - digits.length), rest.dropWhile isDigit)
      else .error .invalid
  | _ => .ok (0, bytes)

/-- The hours and minutes of an offset after its sign, in seconds, and the bytes after them. -/
def readOffsetSize (bytes : Bytes) : Except TimestampError (Nat × Bytes) :=
  match bytes with
  | h₁ :: h₂ :: rest =>
    if isDigit h₁ ∧ isDigit h₂ then
      match rest with
      | [] => .error .tooShort
      | 58 :: m₁ :: m₂ :: rest =>
        if isDigit m₁ ∧ isDigit m₂ then
          if m₁.toNat ≤ 53 then .ok (number [h₁, h₂] * 3600 + number [m₁, m₂] * 60, rest)
          else .error .outOfRange
        else .error .invalid
      | 58 :: _ => .error .tooShort
      | _ => .error .invalid
    else .error .invalid
  | _ => .error .tooShort

/-- The offset from universal time in seconds, and the bytes after it. The minus sign may be the
ASCII or the typographic one. -/
def readOffset (bytes : Bytes) : Except TimestampError (Int × Bytes) :=
  match bytes with
  | [] => .error .tooShort
  | 90 :: rest | 122 :: rest => .ok (0, rest)
  | 43 :: rest => do
    let (size, rest) ← readOffsetSize rest
    pure (size, rest)
  | 45 :: rest | 0xe2 :: 0x88 :: 0x92 :: rest => do
    let (size, rest) ← readOffsetSize rest
    pure (-size, rest)
  | _ => .error .invalid

/-- Reads a timestamp. -/
def ofText (text : String) : Except TimestampError Timestamp := do
  let bytes := Bytes.utf8 text
  if bytes.length < 19 then throw .tooShort
  let days ← readDate (bytes.take 10)
  if (bytes.drop 10).head?.all fun b => b != 84 && b != 116 && b != 32 then throw .invalid
  let (hour, minute, second) ← readTime ((bytes.drop 11).take 8)
  let (fraction, rest) ← readFraction (bytes.drop 19)
  let (second, fraction) :=
    if second = 60 then (59, fraction + Nat.pow 10 9) else (second, fraction)
  if hour > 23 ∨ minute > 59 ∨ second > 59 then throw .outOfRange
  let (offset, rest) ← readOffset rest
  if !rest.isEmpty then throw .trailing
  if offset.natAbs ≥ 86400 then throw .outOfRange
  let seconds := days * 86400 + hour * 3600 + minute * 60 + second - offset
  pure ⟨Int64.ofInt seconds, fraction⟩

end Timestamp

end TezosWallet
