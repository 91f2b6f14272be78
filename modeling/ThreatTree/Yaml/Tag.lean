import ThreatTree.Decimal.Reading
import ThreatTree.Text.Lines

/-!
# Tags

A tag says what kind of value a node stands for. A scalar without quotes and without a tag
gets its tag from its form: the words for null and the truth values, numbers in several
bases, numbers in base sixty such as `1:30`, days and moments, and the two special keys `<<`
and `=`. Anything else is a text.

A form also counts if a single line feed follows it.
-/

namespace ThreatTree.Yaml

inductive Tag where
  | null
  | bool
  | int
  | float
  | binary
  | timestamp
  | omap
  | pairs
  | set
  | str
  | seq
  | map
  | merge
  | value
  | other (address : List Char)
  deriving DecidableEq, Repr

namespace Tag

/-- The start of the addresses of the known tags. -/
def home : String := "tag:yaml.org,2002:"

def known : List (String × Tag) :=
  [("null", null), ("bool", bool), ("int", int), ("float", float), ("binary", binary),
    ("timestamp", timestamp), ("omap", omap), ("pairs", pairs), ("set", set), ("str", str),
    ("seq", seq), ("map", map), ("merge", merge), ("value", value)]

/-- The tag with an address. -/
def ofAddress (address : List Char) : Tag :=
  match known.find? fun k => (home ++ k.1).toList = address with
  | some (_, t) => t
  | none => other address

/-- The tag is one whose values are scalars. -/
def isScalar : Tag → Bool
  | null | bool | int | float | binary | timestamp | str => true
  | _ => false

end Tag

/-! ## Words -/

def nullWords : List String := ["~", "null", "Null", "NULL"]

def boolWords : List String :=
  ["yes", "Yes", "YES", "no", "No", "NO", "true", "True", "TRUE", "false", "False", "FALSE",
    "on", "On", "ON", "off", "Off", "OFF"]

/-! ## Numbers -/

/-- Drop a sign. -/
def dropSign : List Char → List Char
  | '-' :: s => s
  | '+' :: s => s
  | s => s

def isOctal (c : Char) : Bool := '0' ≤ c && c ≤ '7'

/-- The text is not empty, and each character satisfies `p` or is an underscore. -/
def isRun (p : Char → Bool) (s : List Char) : Bool :=
  !s.isEmpty && s.all fun c => p c || c == '_'

/-- Digits and underscores, the first of them a digit. -/
def isDigits (s : List Char) : Bool := s.head?.any Char.isDigit && isRun Char.isDigit s

/-- One group of a number in base sixty: one digit, or two of which the first is at most 5. -/
def isSixtieth : List Char → Bool
  | [a] => a.isDigit
  | [a, b] => a.isDigit && a ≤ '5' && b.isDigit
  | _ => false

/-- One or more groups, each with a colon in front. -/
def isSixtieths (s : List Char) : Bool :=
  match Text.splitOn ':' s with
  | [] :: group :: groups => (group :: groups).all isSixtieth
  | _ => false

/-- A whole number: in base two, eight, ten, sixteen or sixty. -/
def isInt (s : List Char) : Bool :=
  match dropSign s with
  | ['0'] => true
  | '0' :: 'b' :: rest => isRun (fun c => c == '0' || c == '1') rest
  | '0' :: 'x' :: rest =>
    isRun (fun c => c.toNat < 0x80 && (Text.digitIn? 16 c).isSome) rest
  | '0' :: rest => isRun isOctal rest
  | s =>
    let (digits, rest) := s.span fun c => c.isDigit || c == '_'
    isDigits digits && (rest.isEmpty || isSixtieths rest)

/-- Nothing, or the mark of an exponent, a sign and digits. -/
def isExponent : List Char → Bool
  | [] => true
  | e :: sign :: rest =>
    (e == 'e' || e == 'E') && (sign == '-' || sign == '+') && !rest.isEmpty
      && rest.all Char.isDigit
  | _ => false

/-- Places after a point, and perhaps an exponent. -/
def isFraction (s : List Char) : Bool :=
  isExponent (s.dropWhile fun c => c.isDigit || c == '_')

/-- A floating-point number: it has a point, or is a word for infinity or for no number. -/
def isFloat (s : List Char) : Bool :=
  let body := dropSign s
  let (whole, rest) := body.span fun c => c.isDigit || c == '_'
  [".inf", ".Inf", ".INF"].any (·.toList = body)
    || [".nan", ".NaN", ".NAN"].any (·.toList = s)
    || match whole, rest with
      | [], '.' :: places => body = s && places.head?.any Char.isDigit && isFraction places
      | _, '.' :: places => isDigits whole && isFraction places
      | _, _ =>
        let (groups, places) := rest.span (· != '.')
        isDigits whole && isSixtieths groups
          && match places with
            | '.' :: places => places.all fun c => c.isDigit || c == '_'
            | _ => false

/-! ## Time stamps -/

/-- The parts of a time stamp, as written. -/
structure Stamp where
  year : List Char
  month : List Char
  day : List Char
  time : Option (List Char × List Char × List Char)
  fraction : List Char
  /-- A sign, hours and minutes; a `Z` has neither. -/
  zone : Option (Option (Char × List Char × List Char))
  deriving DecidableEq, Repr

namespace Stamp

/-- One digit or two, and the rest. -/
def oneOrTwo : List Char → Option (List Char × List Char)
  | a :: b :: rest =>
    if a.isDigit then if b.isDigit then some ([a, b], rest) else some ([a], b :: rest) else none
  | [a] => if a.isDigit then some ([a], []) else none
  | [] => none

/-- Exactly two digits, and the rest. -/
def two : List Char → Option (List Char × List Char)
  | a :: b :: rest => if a.isDigit && b.isDigit then some ([a, b], rest) else none
  | _ => none

def dropChar (c : Char) : List Char → Option (List Char)
  | d :: rest => if d = c then some rest else none
  | [] => none

/-- An offset with its sign, up to the end of the text. -/
def offset? (sign : Char) (s : List Char) : Option (Option (Char × List Char × List Char)) := do
  let (hours, rest) ← oneOrTwo s
  if rest.isEmpty then return some (sign, hours, [])
  let rest ← dropChar ':' rest
  let (minutes, rest) ← two rest
  if rest.isEmpty then return some (sign, hours, minutes) else none

/-- Nothing, or a zone after blanks, up to the end of the text. -/
def zone? (s : List Char) : Option (Option (Option (Char × List Char × List Char))) :=
  if s.isEmpty then some none
  else match s.dropWhile fun c => c == ' ' || c == '\t' with
    | ['Z'] => some (some none)
    | '+' :: rest => (offset? '+' rest).map some
    | '-' :: rest => (offset? '-' rest).map some
    | _ => none

/-- A letter T, or blanks, between a day and a time of day. -/
def dropSeparator : List Char → Option (List Char)
  | c :: rest =>
    if c == 'T' || c == 't' then some rest
    else if c == ' ' || c == '\t' then some (rest.dropWhile fun c => c == ' ' || c == '\t')
    else none
  | [] => none

def parse? (s : List Char) : Option Stamp := do
  let year := s.take 4
  if year.length ≠ 4 || !year.all Char.isDigit then none
  let rest ← dropChar '-' (s.drop 4)
  let (month, rest) ← oneOrTwo rest
  let rest ← dropChar '-' rest
  let (day, rest) ← oneOrTwo rest
  if rest.isEmpty then return ⟨year, month, day, none, [], none⟩
  let rest ← dropSeparator rest
  let (hour, rest) ← oneOrTwo rest
  let rest ← dropChar ':' rest
  let (minute, rest) ← two rest
  let rest ← dropChar ':' rest
  let (second, rest) ← two rest
  let (fraction, rest) := match rest with
    | '.' :: rest => rest.span Char.isDigit
    | rest => ([], rest)
  let zone ← zone? rest
  return ⟨year, month, day, some (hour, minute, second), fraction, zone⟩

/-- A bare day needs two digits for month and day. -/
def isPlain (t : Stamp) : Bool :=
  t.time.isSome || (t.month.length == 2 && t.day.length == 2)

end Stamp

/-! ## Resolution -/

/-- Drop a line feed at the end. -/
def dropLineFeed (s : List Char) : List Char :=
  if s.getLast? = some '\n' && s.length > 1 then s.dropLast else s

/-- The tag of a plain scalar. -/
def Tag.ofPlain (text : List Char) : Tag :=
  let s := dropLineFeed text
  if s.isEmpty || nullWords.any (·.toList = s) then .null
  else if boolWords.any (·.toList = s) then .bool
  else if isFloat s then .float
  else if isInt s then .int
  else if (Stamp.parse? s).any Stamp.isPlain then .timestamp
  else if s = ['<', '<'] then .merge
  else if s = ['='] then .value
  else if s = ['!'] || s = ['&'] || s = ['*'] then .other (home ++ "yaml").toList
  else .str

end ThreatTree.Yaml
