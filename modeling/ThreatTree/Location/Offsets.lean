import ThreatTree.Location.Index
import ThreatTree.Text.Units
import ThreatTree.Assoc

/-!
# Offsets for a browser

A browser selects text by offsets in UTF-16 units. The table of offsets has an entry for the
title of every located node, and one for the title of every located edge; edges with the same
title share one entry, and the last of them wins.
-/

namespace ThreatTree.Location

/-- Start and end of the located elements, by title. -/
structure Offsets where
  nodes : List (String × Nat × Nat)
  edges : List (String × Nat × Nat)
  deriving DecidableEq, Repr

/-- Start and end of a span in UTF-16 units. -/
def unitOffsets (text : List Char) (s : Span) : Except Span.Outside (Nat × Nat) :=
  (s.offsets text).map fun p => (Text.units (text.take p.1), Text.units (text.take p.2))

/-- The title of the drawing of an edge. -/
def edgeTitle (e : String × String) : String := e.1 ++ "->" ++ e.2

namespace Index

/-- The offsets of all spans in a text. -/
def offsets (ix : Index) (text : List Char) : Except Span.Outside Offsets := do
  let nodes ← ix.nodes.mapM fun n => (unitOffsets text n.2).map (n.1, ·)
  let edges ← ix.edges.mapM fun e => (unitOffsets text e.2).map (edgeTitle e.1, ·)
  return ⟨nodes, assocOfList edges⟩

end Index

end ThreatTree.Location
