import ThreatTree.Yaml.Property
import ThreatTree.Text.Surrogate

/-!
# Quoted scalars

Between single quotes every character stands for itself, and a quote is written twice.
Between double quotes a backslash starts an escape. In both, a line end with the blanks
around it is folded: one line end becomes a blank, and of several the first is dropped.
-/

namespace ThreatTree.Yaml

open Error

/-- The character that a letter after a backslash stands for. -/
def escaped? (c : Char) : Option Char :=
  [('0', '\x00'), ('a', '\x07'), ('b', '\x08'), ('t', '\t'), ('\t', '\t'), ('n', '\n'),
    ('v', '\x0b'), ('f', '\x0c'), ('r', '\r'), ('e', '\x1b'), (' ', ' '), ('"', '"'),
    ('\\', '\\'), ('/', '/'), ('N', '\x85'), ('_', '\xa0'), ('L', '\u2028'),
    ('P', '\u2029')].lookup c

/-- The number of hexadecimal digits that must follow a letter after a backslash. -/
def escapeWidth? (c : Char) : Option Nat := [('x', 2), ('u', 4), ('U', 8)].lookup c

/-- The character with a number, or the stand-in for a surrogate. -/
def charOfCode (n : Nat) : Except Error Char :=
  if 0x80000000 ≤ n then throw tooLarge
  else if 0x110000 ≤ n then throw outOfRange
  else if Text.isSurrogate n then pure (Text.standIn n)
  else pure (Char.ofNat n)

/-- Line ends, with the blanks around them dropped. A document mark inside quotes is refused.
The first argument bounds the number of line ends. -/
def readLineEnds : Nat → Cursor → Except Error (List Char × Cursor)
  | 0, c => pure ([], c)
  | n + 1, c =>
    if atDocumentMark c.rest then throw (malformed "a document mark inside quotes")
    else
      let c := c.dropWhile isSpace
      match c.lineEnd? with
      | none => pure ([], c)
      | some (b, c) => do
        let (bs, c) ← readLineEnds n c
        return (b :: bs, c)

/-- A line end and those that follow, folded. -/
def foldLineEnds (first : Char) (others : List Char) : List Char :=
  if first ≠ '\n' then first :: others
  else if others.isEmpty then [' ']
  else others

/-- The number that the hexadecimal digits of an escape write; none if no such escape starts
here. -/
def readCode (c : Cursor) : Except Error (Option (Nat × Cursor)) :=
  match c.peek.bind escapeWidth? with
  | none => pure none
  | some width =>
    let digits := c.next.rest.take width
    if digits.length = width && digits.all isHexDigit then
      pure (some (hexValue digits, c.skip (width + 1)))
    else throw (malformed "hexadecimal digits were expected")

/-- What follows a backslash. Escapes for a high and a low surrogate in a row stay two. -/
def readEscape (c : Cursor) : Except Error (List Char × Cursor) := do
  match c.peek with
  | none => throw (malformed "the text ends inside quotes")
  | some ch =>
    if let some e := escaped? ch then return ([e], c.next)
    match ← readCode c with
    | some (n, c) => return ([← charOfCode n], c)
    | none =>
      match c.lineEnd? with
      | some (_, c) => readLineEnds (c.rest.length + 1) c
      | none => throw (malformed "an unknown escape")

/-- Characters up to a gap or the closing quote. -/
def readQuotedRun (double : Bool) : Nat → Cursor → Except Error (List Char × Cursor)
  | 0, c => pure ([], c)
  | n + 1, c =>
    match c.rest with
    | [] => pure ([], c)
    | ch :: rest =>
      if double && ch == '"' then pure ([], c)
      else if !double && ch == '\'' then
        if rest.head? == some '\'' then do
          let (more, c) ← readQuotedRun double n (c.skip 2)
          return ('\'' :: more, c)
        else pure ([], c)
      else if double && ch == '\\' then do
        let (e, c) ← readEscape c.next
        let (more, c) ← readQuotedRun double n c
        return (e ++ more, c)
      else if isGap ch then pure ([], c)
      else do
        let (more, c) ← readQuotedRun double n c.next
        return (ch :: more, c)

/-- Blanks, or line ends with the blanks around them. -/
def readQuotedGap (c : Cursor) : Except Error (List Char × Cursor) :=
  let (blanks, c) := c.takeWhile isSpace
  match c.lineEnd? with
  | some (b, c) => do
    let (bs, c) ← readLineEnds (c.rest.length + 1) c
    return (foldLineEnds b bs, c)
  | none => if c.rest.isEmpty then throw (malformed "the text ends inside quotes")
    else pure (blanks, c)

/-- Runs and gaps up to the closing quote. -/
def readQuotedBody (double : Bool) : Nat → Cursor → Except Error (List Char × Cursor)
  | 0, _ => throw (malformed "the text ends inside quotes")
  | n + 1, c => do
    let (run, c) ← readQuotedRun double (c.rest.length + 1) c
    if c.sees (if double then '"' else '\'') then return (run, c.next)
    else
      let (gap, c) ← readQuotedGap c
      let (more, c) ← readQuotedBody double n c
      return (run ++ gap ++ more, c)

/-- A quoted scalar, from its opening to its closing quote. -/
def readQuoted (double : Bool) (c : Cursor) : Except Error (List Char × Cursor) :=
  readQuotedBody double (c.rest.length + 1) c.next

end ThreatTree.Yaml
