/-!
# The shortest decimal that reads back

A finite number of the binary64 format is `m * 2 ^ q`, and stands for every real number that
rounds to it: the interval between the midpoints to its two neighbours, ends included
exactly when `m` is even. `shortest` is the decimal with the fewest digits in that interval;
of several with that many digits it is the one nearest to the number, and of two equally
near the one with the even last digit.

All arithmetic is on natural numbers. The search goes over the grids of decimals with
1, 2, … 17 digits: if a grid has a point in the interval, one of the two grid points around
the number lies in it.
-/

namespace ThreatTree.Decimal

/-- The number `mantissa * 2 ^ exponent`; `atEdge` says that the neighbour below is only half
as far away as the one above. -/
structure Binary where
  mantissa : Nat
  exponent : Int
  atEdge : Bool
  deriving DecidableEq, Repr

/-- The number `digits * 10 ^ exponent`. -/
structure Numeral where
  digits : Nat
  exponent : Int
  deriving DecidableEq, Repr

/-- What the bits of a binary64 number stand for. -/
inductive Class where
  | nan
  | infinite (negative : Bool)
  | finite (negative : Bool) (size : Binary)
  deriving DecidableEq, Repr

/-- Read the sign, the eleven bits of the exponent and the fifty-two bits of the fraction. -/
def classify (x : Float) : Class :=
  let bits : Nat := x.toBits.toNat
  let negative := bits / Nat.pow 2 63 == 1
  let biased : Nat := bits / Nat.pow 2 52 % Nat.pow 2 11
  let fraction : Nat := bits % Nat.pow 2 52
  if biased = 2047 then
    if fraction = 0 then .infinite negative else .nan
  else if biased = 0 then
    .finite negative ⟨fraction, -1074, false⟩
  else
    .finite negative
      ⟨Nat.pow 2 52 + fraction, (biased : Int) - 1075, fraction == 0 && biased > 1⟩

namespace Binary

/-- Numerator and denominator of `2 ^ (exponent - 2) / 10 ^ p`: the quarter unit of the last
place, measured on the grid of multiples of `10 ^ p`. -/
def quarter (b : Binary) (p : Int) : Nat × Nat :=
  let e := b.exponent - 2
  (Nat.pow 2 e.toNat * Nat.pow 10 (-p).toNat, Nat.pow 2 (-e).toNat * Nat.pow 10 p.toNat)

/-- `c * 10 ^ p` rounds to the number. -/
def admits (b : Binary) (p : Int) (c : Nat) : Bool :=
  let (n, d) := b.quarter p
  let low := (4 * b.mantissa - if b.atEdge then 1 else 2) * n
  let high := (4 * b.mantissa + 2) * n
  if b.mantissa % 2 = 0 then low ≤ c * d && c * d ≤ high
  else low < c * d && c * d < high

/-- The point of the grid of multiples of `10 ^ p` that rounds to the number, if any. -/
def onGrid (b : Binary) (p : Int) : Option Nat :=
  let (n, d) := b.quarter p
  let below := 4 * b.mantissa * n / d
  let toBelow := 4 * b.mantissa * n - below * d
  let toAbove := (below + 1) * d - 4 * b.mantissa * n
  match b.admits p below, b.admits p (below + 1) with
  | false, false => none
  | true, false => some below
  | false, true => some (below + 1)
  | true, true =>
    if toBelow < toAbove || (toBelow == toAbove && below % 2 == 0) then some below
    else some (below + 1)

/-- The number of digits of a natural number; zero has one. -/
def digitCount (n : Nat) : Nat := (Nat.toDigits 10 n).length

/-- The least `j` up to `fuel` with `den ≤ num * 10 ^ j`. -/
def leadingZeros (num den : Nat) : Nat → Nat
  | 0 => 0
  | fuel + 1 => if den ≤ num then 0 else leadingZeros (num * 10) den fuel + 1

/-- The exponent of the leading decimal digit of a number that is not zero. -/
def leading (b : Binary) : Int :=
  let num := b.mantissa * Nat.pow 2 b.exponent.toNat
  let den := Nat.pow 2 (-b.exponent).toNat
  if den ≤ num then (digitCount (num / den) : Int) - 1
  else -(leadingZeros num den 400 : Int)

/-- The first grid with a hit, from `n` digits up to `n + fuel`. -/
def search (b : Binary) (lead : Int) : Nat → Nat → Numeral
  | n, 0 => ⟨(b.onGrid (lead - n)).getD 0, lead - n⟩
  | n, fuel + 1 =>
    match b.onGrid (lead - n) with
    | some c => ⟨c, lead - n⟩
    | none => search b lead (n + 1) fuel

/-- The decimal with the fewest digits that rounds to the number. -/
def shortest (b : Binary) : Numeral :=
  if b.mantissa = 0 then ⟨0, 0⟩ else b.search b.leading 0 17

end Binary

end ThreatTree.Decimal
