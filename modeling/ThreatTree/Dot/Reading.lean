import ThreatTree.Dot.Token

/-!
# Reading graphs in DOT

A source text is read back into its statements: assignments of attributes to the graph,
attributes for all nodes or all edges, nodes, and edges between two nodes. Subgraphs, compass
points and separators are not part of what is read.

The statements are read in two steps. `items?` collects the attributes in brackets, and
`statements?` goes through what is left.
-/

namespace ThreatTree.Dot

/-- A name and a value, as they are written. -/
abbrev Assignment := Identifier × Identifier

/-- A statement of a graph, as it is written. -/
inductive Statement where
  | assignment (a : Assignment)
  | nodes (attributes : List Assignment)
  | edges (attributes : List Assignment)
  | node (id : Identifier) (attributes : List Assignment)
  | edge (source target : Identifier) (attributes : List Assignment)
  deriving DecidableEq, Repr

/-! ## Attributes -/

/-- A part of a statement: a token, or attributes in brackets. -/
inductive Item where
  | token (t : Token)
  | attributes (as : List Assignment)
  deriving DecidableEq, Repr

/-- Collect the attributes in brackets. The first argument has those since the open bracket, if
there is one. -/
def items? : Option (List Assignment) → List Token → Option (List Item)
  | none, [] => some []
  | none, .openBracket :: rest => items? (some []) rest
  | none, .closeBracket :: _ => none
  | none, t :: rest => (items? none rest).map (.token t :: ·)
  | some as, .closeBracket :: rest => (items? none rest).map (.attributes as :: ·)
  | some as, .identifier a :: .equals :: .identifier b :: rest =>
    items? (some (as ++ [(a, b)])) rest
  | some _, _ => none

/-! ## Statements -/

/-- A statement about a single identifier: a keyword makes it one about all nodes or edges. -/
def about (id : Identifier) (attributes : List Assignment) : Statement :=
  if id = .bare "node".toList then .nodes attributes
  else if id = .bare "edge".toList then .edges attributes
  else .node id attributes

/-- The statements up to the closing brace, which must be the end. -/
def statements? : List Item → Option (List Statement)
  | [.token .closeBrace] => some []
  | .token (.identifier a) :: .token .equals :: .token (.identifier b) :: rest =>
    (statements? rest).map (.assignment (a, b) :: ·)
  | .token (.identifier a) :: .token .arrow :: .token (.identifier b) :: .attributes as :: rest =>
    (statements? rest).map (.edge a b as :: ·)
  | .token (.identifier a) :: .token .arrow :: .token (.identifier b) :: rest =>
    (statements? rest).map (.edge a b [] :: ·)
  | .token (.identifier a) :: .attributes as :: rest => (statements? rest).map (about a as :: ·)
  | .token (.identifier a) :: rest => (statements? rest).map (about a [] :: ·)
  | _ => none

/-- The name and the statements of a directed graph. -/
def read? (s : List Char) : Option (Identifier × List Statement) :=
  ((tokens? s).bind (items? none)).bind fun
    | .token (.identifier kind) :: .token (.identifier name) :: .token .openBrace :: rest =>
      if kind = .bare "digraph".toList then (statements? rest).map (name, ·) else none
    | _ => none

end ThreatTree.Dot
