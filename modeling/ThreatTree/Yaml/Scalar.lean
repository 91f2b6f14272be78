import ThreatTree.Yaml.Cursor
import ThreatTree.Yaml.Tag
import ThreatTree.Value.Basic
import ThreatTree.Decimal.Reading

/-!
# Values of scalars

The value that a tag and a text stand for. The tag may have been written out, so the text
need not have the form that would have given it that tag.
-/

namespace ThreatTree.Yaml

open Calendar

/-! ## Truth values -/

def bool? (s : List Char) : Except Error Bool :=
  let word := String.ofList (s.map Char.toLower)
  if ["yes", "true", "on"].contains word then pure true
  else if ["no", "false", "off"].contains word then pure false
  else throw .unknownWord

/-! ## Numbers -/

def orOutOfRange {α : Type} (x : Option α) : Except Error α := x.elim (throw .outOfRange) pure

/-- A sign and the rest, which must not be missing altogether. -/
def splitNumber (s : List Char) : Except Error (Bool × List Char) :=
  match s with
  | [] => throw .noDigits
  | '-' :: rest => pure (true, rest)
  | '+' :: rest => pure (false, rest)
  | _ => pure (false, s)

/-- The value of groups in base sixty, the last one counting units. -/
def ofSixtieths (groups : List Int) : Int := groups.foldl (fun n g => n * 60 + g) 0

/-- A whole number; underscores do not count. -/
def int? (s : List Char) : Except Error Int := do
  let (negative, body) ← splitNumber (s.filter (· != '_'))
  let n ← match body with
    | ['0'] => pure 0
    | '0' :: 'b' :: digits => orOutOfRange (Decimal.int? 2 digits)
    | '0' :: 'x' :: digits => orOutOfRange (Decimal.int? 16 digits)
    | '0' :: _ => orOutOfRange (Decimal.int? 8 body)
    | [] => throw .noDigits
    | _ =>
      if body.contains ':' then
        ofSixtieths <$> (Text.splitOn ':' body).mapM (orOutOfRange <| Decimal.int? 10 ·)
      else orOutOfRange (Decimal.int? 10 body)
  return if negative then -n else n

/-- The value of groups in base sixty, summed from the units up. `weight` is the weight of the
next group. -/
def sumSixtieths (total : Float) (weight : Nat) : List Float → Except Error Float
  | [] => pure total
  | g :: gs =>
    if (Float.ofNat weight).isInf then throw .tooLarge
    else sumSixtieths (total + g * Float.ofNat weight) (weight * 60) gs

/-- A floating-point number; underscores do not count. -/
def float? (s : List Char) : Except Error Float := do
  let (negative, body) ← splitNumber ((s.filter (· != '_')).map Char.toLower)
  let x ←
    if body = ".inf".toList then pure (1.0 / 0.0)
    else if body = ".nan".toList then pure (0.0 / 0.0)
    else if body.contains ':' then do
      let groups ← (Text.splitOn ':' body).mapM (orOutOfRange <| Decimal.float? ·)
      sumSixtieths 0.0 1 groups.reverse
    else orOutOfRange (Decimal.float? body)
  return if negative then -x else x

/-! ## Bytes -/

def sextet? (c : Char) : Option Nat :=
  let n := c.toNat
  if c.isUpper then some (n - 65)
  else if c.isLower then some (n - 71)
  else if c.isDigit then some (n + 4)
  else if c == '+' then some 62
  else if c == '/' then some 63
  else none

/-- Bytes written in base sixty-four. Other characters are skipped; the text ends where
padding completes a group of four. `held` is the number of sextets of the open group, `bits`
what is left of the last one, and `pads` the number of padding signs since. -/
def base64? (held bits pads : Nat) : List Char → Option (List UInt8)
  | [] => if held = 0 then some [] else none
  | c :: rest =>
    if c == '=' then
      if 2 ≤ held then
        if 4 ≤ held + pads + 1 then some [] else base64? held bits (pads + 1) rest
      else base64? held bits pads rest
    else match sextet? c with
      | none => base64? held bits pads rest
      | some v =>
        match held with
        | 0 => base64? 1 v 0 rest
        | 1 => (base64? 2 (v % 16) 0 rest).map (UInt8.ofNat (bits * 4 + v / 16) :: ·)
        | 2 => (base64? 3 (v % 4) 0 rest).map (UInt8.ofNat (bits * 16 + v / 4) :: ·)
        | _ => (base64? 0 0 0 rest).map (UInt8.ofNat (bits * 64 + v) :: ·)

def binary? (s : List Char) : Except Error (List UInt8) :=
  if s.all (·.toNat < 0x80) then
    (base64? 0 0 0 s).elim (throw (.malformed "no bytes in base sixty-four")) pure
  else throw (.malformed "no bytes in base sixty-four")

/-! ## Time stamps -/

/-- The number that decimal digits write. -/
def natOf (s : List Char) : Nat := (Decimal.nat? 10 s).getD 0

/-- Six places after the point; further ones are cut off. -/
def microseconds (fraction : List Char) : Nat :=
  natOf ((fraction ++ List.replicate 6 '0').take 6)

/-- Seconds of an offset. -/
def offsetSeconds (sign : Char) (hours minutes : List Char) : Int :=
  let seconds : Int := (natOf hours * 60 + natOf minutes) * 60
  if sign == '-' then -seconds else seconds

/-- The day or the moment that a time stamp denotes, if there is one. -/
def Stamp.value? (t : Stamp) : Option Value :=
  let date : Date := ⟨natOf t.year, natOf t.month, natOf t.day⟩
  match t.time with
  | none => if date.valid then some (.date date) else none
  | some (hour, minute, second) =>
    let offset := t.zone.map fun z => z.elim 0 fun (sign, h, m) => offsetSeconds sign h m
    let moment : Moment :=
      ⟨date, natOf hour, natOf minute, natOf second, microseconds t.fraction, offset⟩
    if moment.valid then some (.moment moment) else none

def timestamp? (s : List Char) : Except Error Value :=
  match Stamp.parse? (dropLineFeed s) with
  | none => throw .notStamp
  | some t => orOutOfRange t.value?

/-! ## All scalars -/

/-- The value of a scalar. Tags of collections and unknown tags do not fit. -/
def scalarValue (tag : Tag) (s : List Char) : Except Error Value :=
  match tag with
  | .null => pure .null
  | .bool => Value.bool <$> bool? s
  | .int => Value.int <$> int? s
  | .float => Value.float <$> float? s
  | .binary => Value.bytes <$> binary? s
  | .timestamp => timestamp? s
  | .str => pure (.str (String.ofList s))
  | _ => throw (.malformed "a tag that does not fit")

end ThreatTree.Yaml
