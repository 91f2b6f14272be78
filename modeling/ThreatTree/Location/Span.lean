import ThreatTree.Text.Lines
import ThreatTree.Record.Field

/-!
# Spans of text

A span is a part of a text that starts in a given line and column, both counted from zero.
Its offsets count characters from the start of the text; they exist if the text has the line.
-/

namespace ThreatTree

/-- A part of a text. -/
structure Span where
  line : Nat
  column : Nat
  length : Nat
  deriving DecidableEq, Repr

namespace Span

/-- The text does not have the line of the span. -/
structure Outside where
  line : Nat
  lineCount : Nat
  deriving DecidableEq, Repr

def Outside.message (e : Outside) : String :=
  "Span line " ++ toString e.line ++ " is outside a " ++ toString e.lineCount ++ "-line text"

/-- The offset of the start of a line. Every line before it counts with its line feed. -/
def lineStart : Nat → List (List Char) → Nat
  | 0, _ | _, [] => 0
  | line + 1, l :: ls => l.length + 1 + lineStart line ls

/-- The offsets of the start and the end of the span. -/
def offsets (s : Span) (text : List Char) : Except Outside (Nat × Nat) :=
  let lines := Text.lines text
  if s.line < lines.length then
    let start := lineStart s.line lines + s.column
    .ok (start, start + s.length)
  else .error ⟨s.line, lines.length⟩

/-- The characters between two offsets, as far as the text has them. -/
def slice (text : List Char) (first last : Nat) : List Char := (text.take last).drop first

/-- The text that the span covers. -/
def excerpt (s : Span) (text : List Char) : Except Outside (List Char) :=
  (s.offsets text).map fun p => slice text p.1 p.2

def ofRecord (entries : Value.Entries) : Record.Checked Span :=
  Span.mk
    <$> Record.required entries "line" Record.nat
    <*> Record.required entries "column" Record.nat
    <*> Record.required entries "length" Record.nat

end Span

end ThreatTree
