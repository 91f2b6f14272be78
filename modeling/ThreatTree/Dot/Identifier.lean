import ThreatTree.Text.Lines

/-!
# Identifiers of DOT

In DOT an identifier is a name, a numeral, a text in double quotes, or markup in angle
brackets. `quote` writes a text as an identifier: as it is where that is possible, and else
in quotes, with a backslash in front of every quote that does not already have an odd number
of them. `escape` doubles backslashes, so that a label is shown as it is.

A single line feed after a name or a numeral does not count against it.
-/

namespace ThreatTree.Dot

def isLetter (c : Char) : Bool := c.isAlpha || c == '_'

/-- A name: letters, digits and underscores, the first no digit. -/
def isName : List Char → Bool
  | [] => false
  | c :: rest => isLetter c && rest.all fun d => isLetter d || d.isDigit

/-- Digits with at most one point among them or around them. -/
def isUnsigned (s : List Char) : Bool :=
  let (whole, rest) := s.span Char.isDigit
  match whole, rest with
  | [], '.' :: places => !places.isEmpty && places.all Char.isDigit
  | _ :: _, [] => true
  | _ :: _, '.' :: places => places.all Char.isDigit
  | _, _ => false

/-- A numeral, perhaps with a minus sign. -/
def isNumeral : List Char → Bool
  | '-' :: rest => isUnsigned rest
  | s => isUnsigned s

/-- The text without a line feed at its end. -/
def dropLineFeed (s : List Char) : List Char :=
  if s.getLast? = some '\n' then s.dropLast else s

/-- The words of the language, in any case. -/
def keywords : List (List Char) :=
  ["node", "edge", "graph", "digraph", "subgraph", "strict"].map String.toList

/-- The text may stand without quotes. -/
def isBare (s : List Char) : Bool :=
  let body := dropLineFeed s
  (isName body || isNumeral body) && !keywords.contains (s.map Char.toLower)

/-- The text is markup. -/
def isMarkup (s : List Char) : Bool :=
  let body := dropLineFeed s
  body.head? == some '<' && body.getLast? == some '>' && body.length ≥ 2

/-- The inside of a quoted identifier. `odd` says that an odd number of backslashes stands
right before the place. -/
def escapeQuotes (odd : Bool) : List Char → List Char
  | [] => []
  | '"' :: rest => if odd then '"' :: escapeQuotes false rest
    else '\\' :: '"' :: escapeQuotes false rest
  | '\\' :: rest => '\\' :: escapeQuotes (!odd) rest
  | c :: rest => c :: escapeQuotes false rest

def inQuotes (s : List Char) : List Char := '"' :: escapeQuotes false s ++ ['"']

/-- A text that is not to be taken for markup, as an identifier. -/
def quotePlain (s : List Char) : List Char := if isBare s then s else inQuotes s

/-- A text as an identifier. -/
def quote (s : List Char) : List Char := if isMarkup s then s else quotePlain s

/-- The text with its backslashes doubled. -/
def escape (s : List Char) : List Char := s.flatMap fun c => if c = '\\' then ['\\', '\\'] else [c]

/-- A label as an identifier. -/
def quoteLabel (s : List Char) : List Char := quotePlain (escape s)

end ThreatTree.Dot
