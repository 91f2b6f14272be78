import ThreatTree.Graph.Basic
import ThreatTree.Dot.Digraph

/-!
# The source text of a graph

What of a graph goes into which statement. Attributes stand in the order of their names, but
a node and an edge start with their label. Titles and labels are written so that they are
shown as they are.
-/

namespace ThreatTree.Graph

open Dot (NodeStatement EdgeStatement Digraph Attributes)

/-- The label that an edge shows: one that is not empty. -/
def shownLabel (label : Option String) : Option String := label.filter fun s => !s.isEmpty

/-- The title in one line: its words with single blanks between them. -/
def titleLine (title : String) : String :=
  String.ofList (Text.join [' '] (Text.words title.toList))

def nodeStatement (n : GraphNode) : NodeStatement :=
  ⟨n.id, ("label", .label n.label) :: Attributes.ofPlain n.style.attributes⟩

def edgeStatement (e : GraphEdge) : EdgeStatement :=
  ⟨e.source, e.target,
    ((shownLabel e.label).map fun s => ("label", Dot.Value.label s)).toList
      ++ Attributes.ofPlain e.attributes⟩

def digraph (title : String) (theme : Theme) (nodes : List GraphNode) (edges : List GraphEdge) :
    Digraph where
  name := "AttackTree"
  comment := "Attack Tree: " ++ titleLine title
  graphAttributes :=
    [("bgcolor", .plain theme.background), ("fontcolor", .plain theme.titleColor),
      ("fontname", .plain theme.fontName), ("fontsize", .plain "16"), ("label", .label title),
      ("labelloc", .plain "t"), ("nodesep", .plain "0.5"), ("rankdir", .plain "TB"),
      ("ranksep", .plain "0.6")]
  nodeAttributes :=
    [("fontname", .plain theme.fontName), ("fontsize", .plain "10"), ("margin", .plain "0.2,0.1")]
  edgeAttributes :=
    [("color", .plain theme.edgeColor), ("fontname", .plain theme.fontName),
      ("fontsize", .plain "9")]
  nodes := nodes.map nodeStatement
  edges := edges.map edgeStatement

end ThreatTree.Graph
