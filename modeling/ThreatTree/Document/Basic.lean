import ThreatTree.Document.Category
import ThreatTree.Text.Blank

/-!
# Documents

A document is a titled attack tree: four lists of nodes. A node names its predecessors; the
edge from a predecessor may have a label, and may be drawn backwards.

The nodes of a document are listed section by section. A node carries its own category, which
for a document read from text is that of its section.
-/

namespace ThreatTree

/-- A declared node with its causal predecessors. -/
structure Node where
  id : String
  label : String
  category : Category
  predecessors : List String
  /-- Pairs of a predecessor and the label of the edge from it. -/
  edgeLabels : List (String × String)
  /-- The predecessors whose edges are drawn backwards. -/
  backwards : List String
  id_not_blank : Text.allBlank id.toList = false
  deriving DecidableEq, Repr

namespace Node

/-- The label of the edge from a predecessor: the first one given. -/
def edgeLabel (n : Node) (pred : String) : Option String := n.edgeLabels.lookup pred

end Node

/-- An attack tree. -/
structure Document where
  title : String
  theme : Option String
  facts : List Node
  attacks : List Node
  mitigations : List Node
  goals : List Node
  deriving DecidableEq, Repr

namespace Document

/-- The title of a document that has none of its own. -/
def defaultTitle : String := "Attack Tree"

/-- The nodes listed in the section of a category. -/
def listed (d : Document) : Category → List Node
  | .fact => d.facts
  | .attack => d.attacks
  | .mitigation => d.mitigations
  | .goal => d.goals

/-- All nodes, in the order of their declaration. -/
def nodes (d : Document) : List Node := Category.all.flatMap d.listed

def nodeIds (d : Document) : List String := d.nodes.map (·.id)

theorem nodes_eq (d : Document) :
    d.nodes = d.facts ++ d.attacks ++ d.mitigations ++ d.goals := by
  simp [nodes, Category.all, listed]

end Document

end ThreatTree
