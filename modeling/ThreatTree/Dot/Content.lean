import ThreatTree.Dot.Digraph
import ThreatTree.Dot.Reading

/-!
# What a graph in DOT says

A statement with texts in place of identifiers is a sentence. A graph that is written has its
sentences (`Digraph.sentences`), and so has a source text that can be read (`content?`). The
value of a `label` is read as it is shown, and any other value as it stands.
-/

namespace ThreatTree.Dot

/-- A statement with texts for its identifiers. -/
inductive Sentence where
  | graph (name value : String)
  | nodes (attributes : List (String × String))
  | edges (attributes : List (String × String))
  | node (id : String) (attributes : List (String × String))
  | edge (source target : String) (attributes : List (String × String))
  deriving DecidableEq, Repr

/-! ## Of a graph that is written -/

def Value.text : Value → String
  | .label s => s
  | .plain s => s

/-- Names and values. -/
def Attributes.texts (as : Attributes) : List (String × String) := as.map fun a => (a.1, a.2.text)

def NodeStatement.sentence (n : NodeStatement) : Sentence := .node n.id n.attributes.texts

def EdgeStatement.sentence (e : EdgeStatement) : Sentence :=
  .edge e.source e.target e.attributes.texts

def Digraph.sentences (g : Digraph) : List Sentence :=
  g.graphAttributes.texts.map (fun a => .graph a.1 a.2)
    ++ [.nodes g.nodeAttributes.texts, .edges g.edgeAttributes.texts]
    ++ g.nodes.map (·.sentence) ++ g.edges.map (·.sentence)

/-! ## Of a source text -/

/-- The name, and the value as it is shown or as it stands. -/
def Assignment.texts (a : Assignment) : String × String :=
  let name := String.ofList a.1.text
  (name, String.ofList (if name = "label" then a.2.labelText else a.2.text))

def Statement.sentence : Statement → Sentence
  | assignment a => .graph (Assignment.texts a).1 (Assignment.texts a).2
  | nodes as => .nodes (as.map Assignment.texts)
  | edges as => .edges (as.map Assignment.texts)
  | node id as => .node (String.ofList id.text) (as.map Assignment.texts)
  | edge source target as =>
    .edge (String.ofList source.text) (String.ofList target.text) (as.map Assignment.texts)

/-- The name and the sentences of a source text. -/
def content? (s : String) : Option (String × List Sentence) :=
  (read? s.toList).map fun p => (String.ofList p.1.text, p.2.map (·.sentence))

end ThreatTree.Dot
