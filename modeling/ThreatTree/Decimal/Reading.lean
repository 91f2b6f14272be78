import ThreatTree.Text.Blank

/-!
# Reading numbers

Whole numbers in a base and floating-point numbers, as they stand in a text. White space
around a number is ignored, the separator controls U+001C to U+001F apart, and digits of every
script count. A script with decimal digits has ten of them in a row, from zero to nine; so the
zeros determine the value of each digit.
-/

namespace ThreatTree.Text

/-- The zeros of all scripts, in increasing order. -/
def zeros : List Nat :=
  [0x30, 0x660, 0x6F0, 0x7C0, 0x966, 0x9E6, 0xA66, 0xAE6, 0xB66, 0xBE6, 0xC66, 0xCE6, 0xD66,
   0xDE6, 0xE50, 0xED0, 0xF20, 0x1040, 0x1090, 0x17E0, 0x1810, 0x1946, 0x19D0, 0x1A80, 0x1A90,
   0x1B50, 0x1BB0, 0x1C40, 0x1C50, 0xA620, 0xA8D0, 0xA900, 0xA9D0, 0xA9F0, 0xAA50, 0xABF0,
   0xFF10, 0x104A0, 0x10D30, 0x11066, 0x110F0, 0x11136, 0x111D0, 0x112F0, 0x11450, 0x114D0,
   0x11650, 0x116C0, 0x11730, 0x118E0, 0x11950, 0x11C50, 0x11D50, 0x11DA0, 0x16A60, 0x16AC0,
   0x16B50, 0x1D7CE, 0x1D7D8, 0x1D7E2, 0x1D7EC, 0x1D7F6, 0x1E140, 0x1E2F0, 0x1E950, 0x1FBF0]

/-- The value of a decimal digit of any script. -/
def digit? (c : Char) : Option Nat :=
  let n := c.toNat
  if n < 0x80 then if 0x30 ≤ n && n ≤ 0x39 then some (n - 0x30) else none
  else (zeros.find? fun z => z ≤ n && n < z + 10).map (n - ·)

/-- The value of a digit in a base up to sixteen, small letters and capitals alike. -/
def digitIn? (base : Nat) (c : Char) : Option Nat :=
  let n := c.toNat
  let value :=
    if 0x61 ≤ n && n ≤ 0x66 then some (n - 0x57)
    else if 0x41 ≤ n && n ≤ 0x46 then some (n - 0x37)
    else digit? c
  value.filter (· < base)

end ThreatTree.Text

namespace ThreatTree.Decimal

open ThreatTree.Text

/-- The longest decimal text of a whole number that is read or written. -/
def digitLimit : Nat := 4300

/-- White space that may stand around a number. -/
def isMargin (c : Char) : Bool := isBlank c && !(28 ≤ c.toNat && c.toNat ≤ 31)

/-- Drop the white space around a number. -/
def dropMargins (s : List Char) : List Char :=
  ((s.dropWhile isMargin).reverse.dropWhile isMargin).reverse

/-! ## Whole numbers -/

/-- The value of a run of digits, most significant first. -/
def ofDigits (base : Nat) (ds : List Nat) : Nat := ds.foldl (fun n d => n * base + d) 0

/-- A leading sign, and the rest. -/
def splitSign : List Char → Bool × List Char
  | '-' :: rest => (true, rest)
  | '+' :: rest => (false, rest)
  | rest => (false, rest)

/-- Drop the two letters that announce a base. -/
def dropBaseMark (mark : Char) : List Char → List Char
  | '0' :: c :: rest => if c.toLower = mark then rest else '0' :: c :: rest
  | s => s

/-- A run of digits without a sign. A text of more than `digitLimit` digits in base 10 is
refused. -/
def nat? (base : Nat) (body : List Char) : Option Nat :=
  if body.isEmpty || (base = 10 && body.length > digitLimit) then none
  else (body.mapM (digitIn? base)).map (ofDigits base)

/-- A whole number in base 2, 8, 10 or 16. -/
def int? (base : Nat) (text : List Char) : Option Int :=
  let (negative, body) := splitSign (dropMargins text)
  let body := match base with
    | 2 => dropBaseMark 'b' body
    | 8 => dropBaseMark 'o' body
    | 16 => dropBaseMark 'x' body
    | _ => body
  (nat? base body).map fun n => if negative then -(n : Int) else n

/-! ## Floating point -/

/-- The number `m * 10 ^ e`, rounded to the nearest one of the format. Far out of range the
answer is infinity or zero at once, so that no huge power is computed. -/
def scaled (m : Nat) (e : Int) : Float :=
  let size : Int := (Nat.toDigits 10 m).length
  if m = 0 then 0.0
  else if e + size > 400 then 1.0 / 0.0
  else if e + size < -400 then 0.0
  else Float.ofScientific m (e < 0) e.natAbs

/-- The digits at the start of a text, and the rest. -/
def takeDigits : List Char → List Nat × List Char
  | [] => ([], [])
  | c :: rest =>
    match digit? c with
    | none => ([], c :: rest)
    | some d =>
      let (ds, r) := takeDigits rest
      (d :: ds, r)

/-- The exponent part that ends a number; no part at all is the exponent zero. -/
def exponent? : List Char → Option Int
  | [] => some 0
  | c :: rest =>
    if c = 'e' || c = 'E' then
      let (negative, body) := splitSign rest
      match takeDigits body with
      | ([], _) => none
      | (ds, []) => some (if negative then -(ofDigits 10 ds : Int) else ofDigits 10 ds)
      | (_, _ :: _) => none
    else none

/-- A number without its sign: digits, perhaps a point and more digits, perhaps an exponent;
or a word for infinity or for no number. -/
def unsigned? (body : List Char) : Option Float :=
  let word := String.ofList (body.map Char.toLower)
  if word = "inf" || word = "infinity" then some (1.0 / 0.0)
  else if word = "nan" then some (0.0 / 0.0)
  else
    let (whole, rest) := takeDigits body
    let (places, rest) := match rest with
      | '.' :: r => takeDigits r
      | r => ([], r)
    if whole.isEmpty && places.isEmpty then none
    else (exponent? rest).map fun e =>
      scaled (ofDigits 10 (whole ++ places)) (e - places.length)

/-- A floating-point number. -/
def float? (text : List Char) : Option Float :=
  let (negative, body) := splitSign (dropMargins text)
  (unsigned? body).map fun x => if negative then -x else x

end ThreatTree.Decimal
