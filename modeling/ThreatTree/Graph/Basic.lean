import ThreatTree.Theme.Basic

/-!
# Graphs

A compiled attack tree: its nodes and edges with all that is needed to draw them, and the
source text for the layout engine.
-/

namespace ThreatTree

structure GraphNode where
  id : String
  label : String
  category : Category
  style : Style
  deriving DecidableEq, Repr

structure GraphEdge where
  source : String
  target : String
  label : Option String
  isBackwards : Bool
  attributes : List Attribute
  deriving DecidableEq, Repr

/-- The title that a drawn edge carries. -/
def GraphEdge.title (e : GraphEdge) : String := e.source ++ "->" ++ e.target

structure Graph where
  title : String
  theme : String
  nodes : List GraphNode
  edges : List GraphEdge
  dot : String
  deriving DecidableEq, Repr

namespace Graph

def node? (g : Graph) (id : String) : Option GraphNode := g.nodes.find? fun n => n.id = id

def edge? (g : Graph) (source target : String) : Option GraphEdge :=
  g.edges.find? fun e => e.source = source ∧ e.target = target

end Graph

end ThreatTree
