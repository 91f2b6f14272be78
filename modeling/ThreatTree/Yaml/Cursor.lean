/-!
# Places in a text

A cursor is a place in a text: what is left, the number of characters before it, its line and
its column. A byte order mark takes no column. Lines end at line feeds, carriage returns,
next-line controls and the two Unicode separators; a carriage return with a line feed is one
line end.

What cannot be read ends with an error. Most faults are faults of form, and the file is refused.
A scalar can also have the form of a number, a day or a truth value and denote none; these faults
are kept apart, since a caller that recovers from a malformed file does not recover from them.
-/

namespace ThreatTree.Yaml

/-! ## Why a data file cannot be read -/

inductive Error where
  /-- The text is no data file, or a tag does not fit what it stands on. -/
  | malformed (reason : String)
  /-- A number or a day has the right form and is out of range. -/
  | outOfRange
  /-- A scalar marked as a truth value is none of the words for one. -/
  | unknownWord
  /-- A scalar marked as a time stamp does not have the form of one. -/
  | notStamp
  /-- A scalar marked as a number has no digit. -/
  | noDigits
  /-- A number in base sixty is too large for a floating-point number, or an escape has a number
  that is no character's by far. -/
  | tooLarge
  /-- A mapping is marked as a time stamp. -/
  | notText
  /-- Too many collections are inside each other. -/
  | tooDeep
  deriving DecidableEq, Repr

/-- The file is refused for its form. -/
def Error.isMalformed : Error → Bool
  | .malformed _ => true
  | _ => false

/-! ## Classes of characters -/

/-- The characters a data file may hold. -/
def isAllowed (c : Char) : Bool :=
  let n := c.toNat
  n == 9 || n == 10 || n == 13 || (0x20 ≤ n && n ≤ 0x7E) || n == 0x85
    || (0xA0 ≤ n && n ≤ 0xD7FF) || (0xE000 ≤ n && n ≤ 0xFFFD) || 0x10000 ≤ n

/-- A character that ends a line. -/
def isBreak (c : Char) : Bool :=
  c == '\n' || c == '\r' || c == '\x85' || c == '\u2028' || c == '\u2029'

/-- A blank or a tabulator. -/
def isSpace (c : Char) : Bool := c == ' ' || c == '\t'

/-- A character that ends a token: a blank, a tabulator or a break. -/
def isGap (c : Char) : Bool := isSpace c || isBreak c

/-- The text ends here, or a gap follows. -/
def atGap : List Char → Bool
  | [] => true
  | c :: _ => isGap c

/-- The text or its line ends here. -/
def atBreak : List Char → Bool
  | [] => true
  | c :: _ => isBreak c

/-- The text or its line ends here, or a blank follows. -/
def atBlank : List Char → Bool
  | [] => true
  | c :: _ => c == ' ' || isBreak c

/-- A letter, a digit, a hyphen or an underscore of ASCII. -/
def isNameChar (c : Char) : Bool := c.isAlphanum || c == '-' || c == '_'

/-- The line that starts here holds a document mark: three hyphens or three dots, then a gap. -/
def atDocumentMark : List Char → Bool
  | '-' :: '-' :: '-' :: rest => atGap rest
  | '.' :: '.' :: '.' :: rest => atGap rest
  | _ => false

/-! ## Cursors -/

/-- A place in a text. -/
structure Cursor where
  rest : List Char
  index : Nat
  line : Nat
  column : Nat
  deriving DecidableEq, Repr

namespace Cursor

/-- The start of a text. -/
def start (s : List Char) : Cursor := ⟨s, 0, 0, 0⟩

def peek (c : Cursor) : Option Char := c.rest.head?

/-- The next character is the given one. -/
def sees (c : Cursor) (ch : Char) : Bool := c.peek == some ch

/-- The place after the next character. -/
def next (c : Cursor) : Cursor :=
  match c.rest with
  | [] => c
  | ch :: rest =>
    if isBreak ch && !(ch == '\r' && rest.head? == some '\n') then
      ⟨rest, c.index + 1, c.line + 1, 0⟩
    else if ch == '\ufeff' then ⟨rest, c.index + 1, c.line, c.column⟩
    else ⟨rest, c.index + 1, c.line, c.column + 1⟩

/-- The place after the next `n` characters. -/
def skip : Nat → Cursor → Cursor
  | 0, c => c
  | n + 1, c => skip n c.next

/-- The longest run of characters that satisfy `p`, and the place after it. -/
def takeWhile (p : Char → Bool) (c : Cursor) : List Char × Cursor :=
  let run := c.rest.takeWhile p
  (run, c.skip run.length)

def dropWhile (p : Char → Bool) (c : Cursor) : Cursor := (c.takeWhile p).2

/-- The line end here, if there is one: a line feed, or one of the Unicode separators. -/
def lineEnd? (c : Cursor) : Option (Char × Cursor) :=
  match c.rest with
  | '\r' :: '\n' :: _ => some ('\n', c.skip 2)
  | ch :: _ =>
    if ch == '\u2028' || ch == '\u2029' then some (ch, c.next)
    else if isBreak ch then some ('\n', c.next)
    else none
  | [] => none

/-- The line end here as a text, empty if there is none. -/
def lineEnd (c : Cursor) : List Char × Cursor :=
  match c.lineEnd? with
  | some (b, c) => ([b], c)
  | none => ([], c)

/-- Skip a comment, if one starts here. -/
def dropComment (c : Cursor) : Cursor :=
  if c.sees '#' then c.dropWhile (fun ch => !isBreak ch) else c

end Cursor

end ThreatTree.Yaml
