import ThreatTree.Proofs.Graph.Check

/-!
# A theme only styles

Without its styling (`Graph.unstyled`) a graph has a title, its nodes and its edges, and of the
attributes of an edge only their names. The checks in front of a graph do not look at the theme,
and what is left of a graph without its styling is drawn alike in all themes (`unstyled_draw`). So
the outcome of compiling is the same for all themes, apart from the styling
(`Document.unstyled_compile`).
-/

namespace ThreatTree

/-- What a node says, whatever its style. -/
def GraphNode.unstyled (n : GraphNode) : String × String × Category := (n.id, n.label, n.category)

/-- What an edge says, whatever its colours. The last part names the attributes that are set. -/
structure UnstyledEdge where
  source : String
  target : String
  label : Option String
  isBackwards : Bool
  attributeNames : List String
  deriving DecidableEq, Repr

def GraphEdge.unstyled (e : GraphEdge) : UnstyledEdge :=
  ⟨e.source, e.target, e.label, e.isBackwards, e.attributes.map (·.1)⟩

/-- What a graph says, whatever its theme. -/
structure UnstyledGraph where
  title : String
  nodes : List (String × String × Category)
  edges : List UnstyledEdge
  deriving DecidableEq, Repr

namespace Graph

def unstyled (g : Graph) : UnstyledGraph :=
  ⟨g.title, g.nodes.map (·.unstyled), g.edges.map (·.unstyled)⟩

variable (theme theme' : Theme)

/-- Which attributes an edge has depends on its direction and on its label alone. -/
theorem names_edgeAttributes (backwards : Bool) (label : Option String) :
    (edgeAttributes theme backwards label).map (·.1)
      = (if backwards then ["color", "constraint"] else [])
        ++ (if (shownLabel label).isSome then ["fontcolor"] else [])
        ++ (if backwards then ["style"] else []) := by
  unfold edgeAttributes
  cases backwards <;> by_cases h : (shownLabel label).isSome <;> simp [h]

theorem unstyled_edgeFrom (nodes : List Node) (n : Node) (pred : String) :
    (edgeFrom theme nodes n pred).unstyled = (edgeFrom theme' nodes n pred).unstyled := by
  simp only [edgeFrom, GraphEdge.unstyled, names_edgeAttributes]

theorem unstyled_edgesInto (nodes : List Node) (n : Node) :
    (edgesInto theme nodes n).map (·.unstyled) = (edgesInto theme' nodes n).map (·.unstyled) := by
  simp only [edgesInto, List.map_map]
  apply List.map_congr_left
  intro pred _
  exact unstyled_edgeFrom theme theme' nodes n pred

theorem unstyled_draw (title : String) (nodes : List Node) :
    (draw title theme nodes).unstyled = (draw title theme' nodes).unstyled := by
  have hnodes : (nodes.map (ofNode theme)).map (·.unstyled)
      = (nodes.map (ofNode theme')).map (·.unstyled) := by
    rw [List.map_map, List.map_map]
    rfl
  have hedges : (nodes.flatMap (edgesInto theme nodes)).map (·.unstyled)
      = (nodes.flatMap (edgesInto theme' nodes)).map (·.unstyled) := by
    simp only [List.map_flatMap, unstyled_edgesInto theme theme']
  simp only [draw, unstyled, hnodes, hedges]

end Graph

open ThreatTree.Graph

/-- With every two themes a document has the same fault, or graphs that say the same. -/
theorem Document.unstyled_compile (registry : Registry) (theme theme' : Option String)
    (d : Document) :
    (d.compile registry theme).map Graph.unstyled
      = (d.compile registry theme').map Graph.unstyled := by
  rw [compile_eq, compile_eq]
  cases check d.nodes with
  | error e => rfl
  | ok _ => exact congrArg Except.ok (unstyled_draw _ _ d.title d.nodes)

/-- A document that compiles with one theme does so with every other. -/
theorem Document.exists_compile_of_compile {registry : Registry} {theme : Option String}
    {d : Document} {g : Graph} (h : d.compile registry theme = .ok g) (theme' : Option String) :
    ∃ g', d.compile registry theme' = .ok g' ∧ g'.unstyled = g.unstyled := by
  have hsame := unstyled_compile registry theme theme' d
  rw [h] at hsame
  cases h' : d.compile registry theme' with
  | error e =>
    rw [h'] at hsame
    cases hsame
  | ok g' =>
    rw [h'] at hsame
    exact ⟨g', rfl, (Except.ok.inj hsame).symm⟩

end ThreatTree
