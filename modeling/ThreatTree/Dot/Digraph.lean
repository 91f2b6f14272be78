import ThreatTree.Dot.Identifier

/-!
# Directed graphs in DOT

A directed graph with a comment in front, attributes for the graph, for all nodes and for all
edges, and then the nodes and the edges, one statement a line.
-/

namespace ThreatTree.Dot

/-- The value of an attribute: a label, or a value that may also be markup. -/
inductive Value where
  | label (s : String)
  | plain (s : String)
  deriving DecidableEq, Repr

def Value.render : Value → List Char
  | .label s => quoteLabel s.toList
  | .plain s => quote s.toList

/-- Attributes, in the order in which they are written. -/
abbrev Attributes := List (String × Value)

namespace Attributes

def ofPlain (as : List (String × String)) : Attributes := as.map fun a => (a.1, .plain a.2)

/-- Names and values, with blanks between the attributes. -/
def render (as : Attributes) : List Char :=
  Text.join [' '] (as.map fun a => quote a.1.toList ++ '=' :: a.2.render)

/-- Attributes in brackets, if there are any. -/
def renderList (as : Attributes) : List Char :=
  if as.isEmpty then [] else [' ', '['] ++ as.render ++ [']']

end Attributes

/-- The statement of a node. -/
structure NodeStatement where
  id : String
  attributes : Attributes
  deriving DecidableEq, Repr

/-- The statement of an edge. -/
structure EdgeStatement where
  source : String
  target : String
  attributes : Attributes
  deriving DecidableEq, Repr

/-- A directed graph as it is written. -/
structure Digraph where
  name : String
  comment : String
  graphAttributes : Attributes
  nodeAttributes : Attributes
  edgeAttributes : Attributes
  nodes : List NodeStatement
  edges : List EdgeStatement
  deriving DecidableEq, Repr

def NodeStatement.render (n : NodeStatement) : List Char :=
  quote n.id.toList ++ n.attributes.renderList

def EdgeStatement.render (e : EdgeStatement) : List Char :=
  quote e.source.toList ++ " -> ".toList ++ quote e.target.toList ++ e.attributes.renderList

namespace Digraph

/-- A line inside the braces. -/
def statement (s : List Char) : List Char := '\t' :: s ++ ['\n']

/-- The source text of a graph. -/
def render (g : Digraph) : List Char :=
  "// ".toList ++ g.comment.toList ++ ['\n']
    ++ "digraph ".toList ++ quote g.name.toList ++ [' ', '\x7b', '\n']
    ++ statement g.graphAttributes.render
    ++ statement ("node".toList ++ g.nodeAttributes.renderList)
    ++ statement ("edge".toList ++ g.edgeAttributes.renderList)
    ++ g.nodes.flatMap (fun n => statement n.render)
    ++ g.edges.flatMap (fun e => statement e.render)
    ++ ['\x7d', '\n']

end Digraph

end ThreatTree.Dot
