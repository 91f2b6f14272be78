import ThreatTree.Yaml.Quoted

/-!
# Plain scalars

A scalar without quotes ends at a colon before a gap, at a comment, at a line that is not
indented far enough, and inside brackets also at the characters that structure a bracketed
collection. Line ends inside it are folded as inside quotes.
-/

namespace ThreatTree.Yaml

/-- A character that structures a bracketed collection. -/
def isFlowMark (c : Char) : Bool :=
  c == ',' || c == '[' || c == ']' || c == '\x7b' || c == '\x7d'

/-- A colon before this text ends a plain scalar. -/
def endsAfterColon (inFlow : Bool) : List Char → Bool
  | [] => true
  | c :: _ => isGap c || (inFlow && isFlowMark c)

/-- The number of characters up to the next gap or the end of the scalar. -/
def plainRun (inFlow : Bool) : List Char → Nat
  | [] => 0
  | c :: rest =>
    if isGap c || (c == ':' && endsAfterColon inFlow rest)
        || (inFlow && (isFlowMark c || c == '?')) then 0
    else plainRun inFlow rest + 1

/-- Line ends and blanks after a line end; none if a document mark follows. -/
def plainLineEnds : Nat → Cursor → Option (List Char) × Cursor
  | 0, c => (some [], c)
  | n + 1, c =>
    if atDocumentMark c.rest then (none, c)
    else
      let c := c.dropWhile (· == ' ')
      match c.lineEnd? with
      | none => (some [], c)
      | some (b, c) =>
        let (bs, c) := plainLineEnds n c
        (bs.map (b :: ·), c)

/-- The gap between two runs, whether it has a line end, and the place after it. An empty gap
ends the scalar. -/
def plainGap (c : Cursor) : List Char × Bool × Cursor :=
  let (blanks, c) := c.takeWhile (· == ' ')
  match c.lineEnd? with
  | none => (blanks, false, c)
  | some (b, c) =>
    match plainLineEnds (c.rest.length + 1) c with
    | (none, c) => ([], true, c)
    | (some bs, c) => (foldLineEnds b bs, true, c)

/-- Runs and the gaps between them. `gap` is the gap before the next run, and `broke` says
whether it has a line end. -/
def plainBody (inFlow : Bool) (indent : Nat) :
    Nat → List Char → Bool → Cursor → List Char × Bool × Cursor
  | 0, _, broke, c => ([], broke, c)
  | n + 1, gap, broke, c =>
    let size := plainRun inFlow c.rest
    if c.sees '#' || size == 0 then ([], broke, c)
    else
      let run := c.rest.take size
      let (gap', broke', c) := plainGap (c.skip size)
      if gap'.isEmpty || c.sees '#' || (!inFlow && c.column < indent) then
        (gap ++ run, broke', c)
      else
        let (more, broke'', c) := plainBody inFlow indent n gap' broke' c
        (gap ++ run ++ more, broke'', c)

/-- A plain scalar, whether a line end follows its last run, and the place after it. Its lines
after the first must be indented by at least `indent`. -/
def readPlain (inFlow : Bool) (indent : Nat) (c : Cursor) : List Char × Bool × Cursor :=
  plainBody inFlow indent (c.rest.length + 1) [] false c

end ThreatTree.Yaml
