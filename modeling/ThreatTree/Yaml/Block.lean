import ThreatTree.Yaml.Plain

/-!
# Block scalars

A block scalar is introduced by `|` or `>` and holds the lines below that are indented. With
`|` it keeps its line ends; with `>` a single line end between two lines that do not start
with a blank becomes a blank. The line ends after the last line are kept, clipped to one or
dropped, as the introducing line says.
-/

namespace ThreatTree.Yaml

open Error

/-- What happens to the line ends after the last line. -/
inductive Chomping where
  | clip
  | keep
  | strip
  deriving DecidableEq, Repr

def chomping? : Option Char → Option Chomping
  | some '+' => some .keep
  | some '-' => some .strip
  | _ => none

/-- A digit from one to nine that gives the indentation. -/
def readIncrement (c : Cursor) : Except Error (Option Nat × Cursor) :=
  match c.peek with
  | some ch =>
    if ch.isDigit then
      if ch = '0' then throw (malformed "an indentation of zero")
      else pure (some (ch.toNat - '0'.toNat), c.next)
    else pure (none, c)
  | none => pure (none, c)

/-- The signs after `|` or `>`: chomping and indentation, in either order. -/
def readBlockHeader (c : Cursor) : Except Error ((Chomping × Option Nat) × Cursor) := do
  let (chomping, increment, c) ←
    match chomping? c.peek with
    | some chomping => do
      let (increment, c) ← readIncrement c.next
      pure (chomping, increment, c)
    | none => do
      let (increment, c) ← readIncrement c
      match increment, chomping? c.peek with
      | some _, some chomping => pure (chomping, increment, c.next)
      | _, _ => pure (.clip, increment, c)
  if atBlank c.rest then return ((chomping, increment), c)
  else throw (malformed "the block header runs on")

/-- Blank lines before the first line of text, and the greatest column reached. -/
def leadingLines : Nat → Nat → Cursor → List Char × Nat × Cursor
  | 0, widest, c => ([], widest, c)
  | n + 1, widest, c =>
    match c.lineEnd? with
    | some (b, c) =>
      let (bs, widest, c) := leadingLines n widest c
      (b :: bs, widest, c)
    | none =>
      if c.sees ' ' then leadingLines n (max widest c.next.column) c.next
      else ([], widest, c)

/-- Skip blanks up to a column. -/
def skipIndent (indent : Nat) (c : Cursor) : Cursor :=
  c.skip (min (indent - c.column) (c.rest.takeWhile (· == ' ')).length)

/-- Blank lines, each with its indentation skipped. -/
def blankLines (indent : Nat) : Nat → Cursor → List Char × Cursor
  | 0, c => ([], c)
  | n + 1, c =>
    let c := skipIndent indent c
    match c.lineEnd? with
    | some (b, c) =>
      let (bs, c) := blankLines indent n c
      (b :: bs, c)
    | none => ([], c)

/-- A line of text starts here. -/
def startsLine (indent : Nat) (c : Cursor) : Bool := c.column == indent && !c.rest.isEmpty

/-- The lines of text: their content, the last line end, the blank lines after it, and the
place after those. `blanks` are the line ends before the first of them. -/
def blockLines (folded : Bool) (indent : Nat) :
    Nat → List Char → Cursor → List Char × List Char × List Char × Cursor
  | 0, blanks, c => ([], [], blanks, c)
  | n + 1, blanks, c =>
    if startsLine indent c then
      let spaced := c.peek.any isSpace
      let (text, c) := c.takeWhile fun ch => !isBreak ch
      let (lineEnd, c) := c.lineEnd
      let (blanks', c) := blankLines indent (c.rest.length + 1) c
      if startsLine indent c then
        let glue :=
          if folded && lineEnd == ['\n'] && !spaced && !c.peek.any isSpace then
            if blanks'.isEmpty then [' '] else []
          else lineEnd
        let (more, last, trailing, c) := blockLines folded indent n blanks' c
        (blanks ++ text ++ glue ++ more, last, trailing, c)
      else (blanks ++ text, lineEnd, blanks', c)
    else ([], [], blanks, c)

/-- A block scalar, from its sign on. `parent` is the least indentation of its lines. -/
def readBlock (folded : Bool) (parent : Nat) (c : Cursor) : Except Error (List Char × Cursor) := do
  let ((chomping, increment), c) ← readBlockHeader c.next
  let c ← readLineRest c
  let least := max parent 1
  let (indent, blanks, c) := match increment with
    | none =>
      let (blanks, widest, c) := leadingLines (c.rest.length + 1) 0 c
      (max least widest, blanks, c)
    | some k =>
      let indent := least + k - 1
      let (blanks, c) := blankLines indent (c.rest.length + 1) c
      (indent, blanks, c)
  let (text, last, trailing, c) := blockLines folded indent (c.rest.length + 1) blanks c
  let ending := match chomping with
    | .strip => []
    | .clip => last
    | .keep => last ++ trailing
  return (text ++ ending, c)

end ThreatTree.Yaml
