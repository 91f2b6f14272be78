import ThreatTree.Graph.Drawing
import ThreatTree.Theme.Registry
import ThreatTree.Distinct

/-!
# Compiling documents

A document compiles if no id is declared twice and every predecessor is declared. The graph
has the nodes of the document in order, and for each node the edges from its predecessors,
each once. An edge runs backwards if its target says so, or if its source belongs to a later
category; such an edge does not take part in the ranking of the layout.

Compiling is a function of the document, the registry and the name of a theme.
-/

namespace ThreatTree

namespace Graph

/-- Why a document does not compile. -/
inductive Error where
  | duplicateId (id : String)
  | unknownReference (id missing : String)
  deriving DecidableEq, Repr

def Error.message : Error → String
  | duplicateId id => "Node id '" ++ id ++ "' is declared more than once"
  | unknownReference id missing =>
    "Node '" ++ id ++ "' references undeclared node: " ++ missing

/-! ## Checks -/

/-- The first id that repeats one of `seen` or of an earlier node. -/
def firstDuplicate (seen : List String) : List Node → Option String
  | [] => none
  | n :: ns => if seen.contains n.id then some n.id else firstDuplicate (n.id :: seen) ns

/-- The first node with an undeclared predecessor, and that predecessor. -/
def firstUnknown (ids : List String) (nodes : List Node) : Option (String × String) :=
  nodes.findSome? fun n => (n.predecessors.find? fun p => !ids.contains p).map (n.id, ·)

def check (nodes : List Node) : Except Error Unit :=
  match firstDuplicate [] nodes with
  | some id => throw (.duplicateId id)
  | none =>
    match firstUnknown (nodes.map (·.id)) nodes with
    | some (id, missing) => throw (.unknownReference id missing)
    | none => pure ()

/-! ## Nodes and edges -/

def ofNode (theme : Theme) (n : Node) : GraphNode :=
  ⟨n.id, n.label, n.category, theme.styleFor n⟩

/-- The category of the node with an id. -/
def categoryOf? (nodes : List Node) (id : String) : Option Category :=
  (nodes.find? fun n => n.id = id).map (·.category)

/-- The edge from a predecessor runs backwards. -/
def isBackwards (nodes : List Node) (pred : String) (n : Node) : Bool :=
  n.backwards.contains pred || (categoryOf? nodes pred).any fun c => n.category.rank < c.rank

/-- The attributes of an edge, in the order of their names. -/
def edgeAttributes (theme : Theme) (backwards : Bool) (label : Option String) : List Attribute :=
  (if backwards then [("color", theme.backwardsEdgeColor), ("constraint", "false")] else [])
    ++ (if (shownLabel label).isSome then [("fontcolor", theme.edgeLabelColor)] else [])
    ++ (if backwards then [("style", "dashed")] else [])

def edgeFrom (theme : Theme) (nodes : List Node) (n : Node) (pred : String) : GraphEdge :=
  let backwards := isBackwards nodes pred n
  let label := n.edgeLabel pred
  ⟨pred, n.id, label, backwards, edgeAttributes theme backwards label⟩

/-- The edges into a node. -/
def edgesInto (theme : Theme) (nodes : List Node) (n : Node) : List GraphEdge :=
  (distinct n.predecessors).map (edgeFrom theme nodes n)

/-- The graph of nodes that passed the checks. -/
def draw (title : String) (theme : Theme) (nodes : List Node) : Graph :=
  let graphNodes := nodes.map (ofNode theme)
  let edges := nodes.flatMap (edgesInto theme nodes)
  ⟨title, theme.name, graphNodes, edges,
    String.ofList (digraph title theme graphNodes edges).render⟩

end Graph

/-- The theme that is used: the one asked for, or else the document's own. -/
def Document.chosenTheme (d : Document) (theme : Option String) : Option String :=
  theme <|> d.theme

/-- The graph of a document. -/
def Document.compile (registry : Registry) (theme : Option String) (d : Document) :
    Except Graph.Error Graph := do
  Graph.check d.nodes
  return Graph.draw d.title (registry.resolve (d.chosenTheme theme)) d.nodes

end ThreatTree
