import ThreatTree.Yaml.Cursor
import ThreatTree.Yaml.Tag
import ThreatTree.Text.Blank

/-!
# Writing a text as a scalar

A text is written plain if it then reads back as that text; else between single quotes; and
between double quotes if it has characters that must be escaped, or blanks next to a line
end. Beyond column 80 a line is broken at the next single blank.

The scalar is the value of a top-level key, so further lines are indented by two.
-/

namespace ThreatTree.Yaml.Writing

/-- Where long lines are broken. -/
def width : Nat := 80

/-- A line end inside a scalar, and the indentation of the next line. -/
def newLine : List Char := ['\n', ' ', ' ']

/-- The column after the indentation. -/
def indentColumn : Nat := 2

/-! ## What a text allows -/

/-- A character that ends a line. A carriage return is not written as one. -/
def isLineEnd (c : Char) : Bool := isBreak c && c != '\r'

/-- A character that can be written without an escape. -/
def isDirect (c : Char) : Bool :=
  c == '\n' || (0x20 ≤ c.toNat && c.toNat ≤ 0x7E)
    || (isAllowed c && 0x80 ≤ c.toNat && c != '\ufeff' && c.toNat != 0x10FFFF)

/-- The start of a text that cannot be the start of a plain scalar. -/
def hasMarkAtStart : List Char → Bool
  | [] => false
  | c :: rest =>
    "#,[]\x7b\x7d&*!|>'\"%@\x60".toList.contains c
      || ((c == '?' || c == ':' || c == '-') && atGap rest)

/-- A place inside a text that would end a plain scalar: a colon before a gap, or a hash sign
after one. `gap` says that a gap stands before the place. -/
def hasMarkInside (gap : Bool) : List Char → Bool
  | [] => false
  | c :: rest =>
    (c == ':' && atGap rest) || (c == '#' && gap) || hasMarkInside (isGap c) rest

/-- Two neighbours of which the first satisfies `p` and the second `q`. -/
def hasPair (p q : Char → Bool) : List Char → Bool
  | a :: b :: rest => (p a && q b) || hasPair p q (b :: rest)
  | _ => false

def isBlankChar (c : Char) : Bool := c == ' '

/-- The text needs escapes. -/
def needsEscapes (s : List Char) : Bool :=
  !s.all isDirect || hasPair isLineEnd isBlankChar s || hasPair isBlankChar isLineEnd s

/-- The text can be written without quotes. -/
def isPlain (s : List Char) : Bool :=
  Tag.ofPlain s == .str && !needsEscapes s && !s.any isLineEnd
    && !(s.head?.any isBlankChar) && !(s.getLast?.any isBlankChar)
    && !("---".toList.isPrefixOf s) && !("...".toList.isPrefixOf s)
    && !hasMarkAtStart s && !hasMarkInside false s.tail

/-! ## Plain and single-quoted texts -/

/-- A run of blanks, of line ends, or of other characters. -/
inductive Run where
  | blanks (count : Nat)
  | lineEnds (breaks : List Char)
  | text (s : List Char)
  deriving DecidableEq, Repr

/-- A character in front of a text that is cut into runs. -/
def Run.cons (c : Char) (rs : List Run) : List Run :=
  if c == ' ' then match rs with
    | .blanks n :: rs => .blanks (n + 1) :: rs
    | rs => .blanks 1 :: rs
  else if isLineEnd c then match rs with
    | .lineEnds bs :: rs => .lineEnds (c :: bs) :: rs
    | rs => .lineEnds [c] :: rs
  else match rs with
    | .text s :: rs => .text (c :: s) :: rs
    | rs => .text [c] :: rs

/-- The maximal runs of a text. -/
def runs (s : List Char) : List Run := s.foldr Run.cons []

/-- Quotes are written twice. -/
def doubleQuotes (s : List Char) : List Char :=
  s.flatMap fun c => if c == '\'' then ['\'', '\''] else [c]

/-- Line ends inside single quotes: one more if the first is a line feed, which folding drops. -/
def writeLineEnds (breaks : List Char) : List Char :=
  (if breaks.head? == some '\n' then ['\n'] else []) ++ breaks ++ [' ', ' ']

/-- Runs from a column on. A single blank beyond the width becomes a line end, but not at the
start or the end of the text. -/
def writeRuns (write : List Char → List Char) : Bool → Nat → List Run → List Char
  | _, _, [] => []
  | isFirst, column, .blanks n :: rs =>
    if n == 1 && column > width && !isFirst && !rs.isEmpty then
      newLine ++ writeRuns write false indentColumn rs
    else List.replicate n ' ' ++ writeRuns write false (column + n) rs
  | _, _, .lineEnds bs :: rs => writeLineEnds bs ++ writeRuns write false indentColumn rs
  | _, column, .text s :: rs =>
    let t := write s
    t ++ writeRuns write false (column + t.length) rs

def plain (column : Nat) (s : List Char) : List Char := writeRuns id true column (runs s)

def singleQuoted (column : Nat) (s : List Char) : List Char :=
  '\'' :: writeRuns doubleQuotes true (column + 1) (runs s) ++ ['\'']

/-! ## Double-quoted texts -/

/-- The letter that stands for a character after a backslash. -/
def letter? (c : Char) : Option Char :=
  [('\x00', '0'), ('\x07', 'a'), ('\x08', 'b'), ('\t', 't'), ('\n', 'n'), ('\x0b', 'v'),
    ('\x0c', 'f'), ('\r', 'r'), ('\x1b', 'e'), ('"', '"'), ('\\', '\\'), ('\x85', 'N'),
    ('\xa0', '_'), ('\u2028', 'L'), ('\u2029', 'P')].lookup c

/-- A character that is escaped between double quotes. -/
def isEscaped (c : Char) : Bool :=
  let n := c.toNat
  c == '"' || c == '\\' || c == '\x85' || c == '\u2028' || c == '\u2029' || c == '\ufeff'
    || !((0x20 ≤ n && n ≤ 0x7E) || (0xA0 ≤ n && n ≤ 0xD7FF) || (0xE000 ≤ n && n ≤ 0xFFFD))

/-- Hexadecimal digits in capitals, padded with zeros. -/
def hexDigits (count n : Nat) : List Char :=
  let ds := (Nat.toDigits 16 n).map Char.toUpper
  List.replicate (count - ds.length) '0' ++ ds

def escapeOf (c : Char) : List Char :=
  match letter? c with
  | some l => ['\\', l]
  | none =>
    if c.toNat ≤ 0xFF then '\\' :: 'x' :: hexDigits 2 c.toNat
    else if c.toNat ≤ 0xFFFF then '\\' :: 'u' :: hexDigits 4 c.toNat
    else '\\' :: 'U' :: hexDigits 8 c.toNat

/-- A line end that does not count, and a backslash to keep a blank after it. -/
def brokenBefore (next : Option Char) : List Char × Nat :=
  if next == some ' ' then ('\\' :: newLine ++ ['\\'], indentColumn + 1)
  else ('\\' :: newLine, indentColumn)

/-- The inside of double quotes. `column` is the column of the place; `waiting` is the number
of characters since the last escape or line end. Lines are broken after an escape and before
a blank, but not at the start or the end of the text. -/
def doubleQuotedBody : Bool → Nat → Nat → List Char → List Char
  | _, _, _, [] => []
  | isFirst, column, waiting, c :: rest =>
    let inside := !isFirst && !rest.isEmpty
    if isEscaped c then
      let e := escapeOf c
      let column := column + e.length
      if inside && column > width + 1 then
        let (b, column) := brokenBefore rest.head?
        e ++ b ++ doubleQuotedBody false column 0 rest
      else e ++ doubleQuotedBody false column 0 rest
    else if inside && (c == ' ' || waiting == 0) && column > width then
      let (b, column) := brokenBefore (some c)
      b ++ c :: doubleQuotedBody false (column + 1) 1 rest
    else c :: doubleQuotedBody false (column + 1) (waiting + 1) rest

def doubleQuoted (column : Nat) (s : List Char) : List Char :=
  '"' :: doubleQuotedBody true (column + 1) 0 s ++ ['"']

/-! ## Scalars -/

/-- A text as a scalar that starts at a column. -/
def scalar (column : Nat) (s : List Char) : List Char :=
  if isPlain s then plain column s
  else if needsEscapes s then doubleQuoted column s
  else singleQuoted column s

/-- A key and a text as the only entry of a data file, without white space at the ends. -/
def entry (key : String) (s : List Char) : List Char :=
  let start := key.toList ++ [':', ' ']
  Text.trim (start ++ scalar start.length s)

end ThreatTree.Yaml.Writing
