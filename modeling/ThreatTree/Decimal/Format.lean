import ThreatTree.Decimal.Shortest

/-!
# Writing a floating-point number

The digits are those of the shortest decimal that reads back; a `Format` says how they are
laid out.
-/

namespace ThreatTree.Decimal

/-- How the digits of a number are laid out. The exponent of a number is that of its leading
digit. -/
structure Format where
  /-- The least exponent that is written positionally. -/
  least : Int
  /-- The greatest exponent that is written positionally. -/
  greatest : Int
  /-- What follows a whole number in positional notation. -/
  wholeMark : String
  /-- What stands before the sign of the exponent. -/
  exponentMark : String
  /-- The least number of digits of the exponent. -/
  exponentDigits : Nat
  infinity : String
  nan : String

namespace Format

/-- A zero point, a sign and two digits of exponent, positional from a ten-thousandth to below
ten quadrillions. -/
def plain : Format where
  least := -4
  greatest := 15
  wholeMark := ".0"
  exponentMark := "e"
  exponentDigits := 2
  infinity := "inf"
  nan := "nan"

/-- Trailing zeros dropped; the first argument bounds their number. -/
def dropZeros : Nat → List Char → List Char
  | 0, s => s
  | n + 1, s => if s.getLast? = some '0' && s.length > 1 then dropZeros n s.dropLast else s

/-- The exponent with its sign and at least `exponentDigits` digits. -/
def exponentText (f : Format) (e : Int) : String :=
  let digits := toString e.natAbs
  let padding := String.ofList (List.replicate (f.exponentDigits - digits.length) '0')
  f.exponentMark ++ (if e < 0 then "-" else "+") ++ padding ++ digits

/-- Lay out a decimal that is not negative. -/
def layOut (f : Format) (d : Numeral) : String :=
  let digits := Nat.toDigits 10 d.digits
  let lead : Int := if d.digits = 0 then 0 else d.exponent + digits.length - 1
  let ds := dropZeros digits.length digits
  if f.least ≤ lead && lead ≤ f.greatest then
    if lead < 0 then
      "0." ++ String.ofList (List.replicate (-lead - 1).toNat '0' ++ ds)
    else
      let whole := lead.toNat + 1
      if ds.length ≤ whole then
        String.ofList (ds ++ List.replicate (whole - ds.length) '0') ++ f.wholeMark
      else String.ofList (ds.take whole ++ '.' :: ds.drop whole)
  else
    let mantissa := match ds with
      | [] => []
      | [d] => [d]
      | d :: more => d :: '.' :: more
    String.ofList mantissa ++ f.exponentText lead

/-- The text of a floating-point number. -/
def write (f : Format) (x : Float) : String :=
  match classify x with
  | .nan => f.nan
  | .infinite negative => (if negative then "-" else "") ++ f.infinity
  | .finite negative b => (if negative then "-" else "") ++ f.layOut b.shortest

end Format

end ThreatTree.Decimal
