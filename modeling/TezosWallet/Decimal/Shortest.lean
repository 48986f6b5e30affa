/-!
# Shortest decimals

Among all decimals that read back as a given binary floating-point number, the one on the coarsest
decimal grid has the fewest digits. Of the grid's points that read back, the one nearest to the
number is taken; of two equally near, the one whose last digit is even.

## Main definitions

* `Decimal.Binary` — a positive number `m * 2 ^ q` with the bounds of what reads back as it.
* `Decimal.shortest` — the shortest decimal of such a number.
* `Decimal.binaryOf` — the number in the bits of a double.
-/

namespace TezosWallet.Decimal

/-- A positive binary number. In quarters of `2 ^ q` it is `4 * m`; the reals that round to it
reach `below` quarters down and two quarters up, with the ends included when `m` is even. -/
structure Binary where
  m : Nat
  q : Int
  below : Nat

/-- A decimal `coefficient * 10 ^ exponent`. -/
structure Point where
  coefficient : Nat
  exponent : Int
  deriving DecidableEq, Repr

/-- A fraction of naturals equal to `n * 2 ^ q / 10 ^ u`. -/
def scaled (n : Nat) (q u : Int) : Nat × Nat :=
  (n * Nat.pow 2 q.toNat * Nat.pow 10 (-u).toNat, Nat.pow 2 (-q).toNat * Nat.pow 10 u.toNat)

/-- Whether `c * 10 ^ u` rounds to the number. -/
def Binary.covers (x : Binary) (c : Nat) (u : Int) : Bool :=
  let low := scaled (4 * x.m - x.below) (x.q - 2) u
  let high := scaled (4 * x.m + 2) (x.q - 2) u
  if x.m % 2 = 0 then low.1 ≤ c * low.2 && c * high.2 ≤ high.1
  else low.1 < c * low.2 && c * high.2 < high.1

/-- The point nearest to the number that reads back on the grid of `10 ^ u`, if there is one: it is
one of the number's two neighbours. -/
def Binary.onGrid? (x : Binary) (u : Int) : Option Point :=
  let exact := scaled x.m x.q u
  let c := exact.1 / exact.2
  match x.covers c u, x.covers (c + 1) u with
  | false, false => none
  | true, false => some ⟨c, u⟩
  | false, true => some ⟨c + 1, u⟩
  | true, true =>
    let rest := 2 * (exact.1 % exact.2)
    some ⟨if rest < exact.2 ∨ rest = exact.2 ∧ c % 2 = 0 then c else c + 1, u⟩

/-- Searches the grids from `10 ^ u` down to `fuel` finer ones. -/
def Binary.search (x : Binary) : (fuel : Nat) → (u : Int) → Option Point
  | 0, _ => none
  | fuel + 1, u =>
    match x.onGrid? u with
    | some point => some point
    | none => x.search fuel (u - 1)

/-- The shortest decimal of a number below `10 ^ 309` that is a multiple of `2 ^ -1074`; the search
ends at the latest where the grid contains the number itself. -/
def shortest (x : Binary) : Point := (x.search 1400 309).getD ⟨x.m, 0⟩

/-- The number in the bits of a positive finite double: fifty-two fraction bits below eleven
exponent bits. A number at the foot of its binade is twice as close to the next one below. -/
def binaryOf (bits : Nat) : Binary :=
  let fraction : Nat := bits % Nat.pow 2 52
  let exponent : Nat := bits / Nat.pow 2 52 % Nat.pow 2 11
  if exponent = 0 then ⟨fraction, -1074, 2⟩
  else ⟨fraction + Nat.pow 2 52, exponent - 1075, if fraction = 0 ∧ exponent > 1 then 1 else 2⟩

end TezosWallet.Decimal
