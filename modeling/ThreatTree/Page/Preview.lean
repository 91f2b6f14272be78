import ThreatTree.Page.Template
import ThreatTree.Page.Html
import ThreatTree.Page.Json
import ThreatTree.Graph.Basic

/-!
# The preview page

A page made of fixed parts, texts that are escaped, a drawing that is put in as it is, and
the table of offsets. The browser turns the line ends of the source text into line feeds; the
text is written that way where a carriage return stands before a line feed, and the offsets
are those in the written text.
-/

namespace ThreatTree.Page

/-- A part of the page. -/
inductive Piece where
  | fixed (s : String)
  | text (s : List Char)
  | drawing (s : List Char)
  | script (s : List Char)

def Piece.render : Piece → List Char
  | fixed s => s.toList
  | text s => Html.escape s
  | drawing s => s
  | script s => s

/-- The drawing without what stands before its first element. -/
def inlineSvg (svg : List Char) : List Char := (Text.from? "<svg".toList svg).getD svg

/-- What the page shows. -/
structure Content where
  title : String
  theme : String
  sourceName : String
  text : List Char
  svg : List Char
  offsets : Location.Offsets
  nodeCount : Nat
  edgeCount : Nat
  error : Option String
  stamp : String

/-- A box with the error, if there is one. -/
def errorPieces (error : Option String) : List Piece :=
  match error.filter fun e => !e.isEmpty with
  | none => []
  | some e => [.fixed beforeError, .text e.toList, .fixed afterError]

/-- The parts of the page, in order. -/
def Content.pieces (c : Content) : List Piece :=
  [.fixed head, .text c.title.toList,
    .fixed style, .text c.sourceName.toList,
    .fixed beforeNodes, .text (toString c.nodeCount).toList,
    .fixed beforeEdges, .text (toString c.edgeCount).toList,
    .fixed beforeTheme, .text c.theme.toList,
    .fixed beforeText, .text c.text,
    .fixed beforeTitle, .text c.title.toList,
    .fixed beforeStamp, .text c.stamp.toList,
    .fixed beforeDrawing]
  ++ errorPieces c.error
  ++ [.fixed drawing, .drawing c.svg,
    .fixed script, .script (Json.offsets c.offsets),
    .fixed tail]

def Content.render (c : Content) : List Char := c.pieces.flatMap Piece.render

/-- The name of the source if none is given. -/
def defaultSourceName : String := "attack-tree.yaml"

/-- What is written beside the source text of the page. -/
structure Options where
  svg : Option String
  sourceName : String
  error : Option String
  stamp : String

/-- What a page about a graph and its index shows. -/
def content (text : List Char) (graph : Graph) (index : Location.Index) (o : Options) :
    Except Span.Outside Content := do
  let text := Text.unixPairs text
  let offsets ← index.offsets text
  return {
    title := graph.title
    theme := graph.theme
    sourceName := o.sourceName
    text := text
    svg := (o.svg.map fun s => inlineSvg s.toList).getD []
    offsets := offsets
    nodeCount := graph.nodes.length
    edgeCount := graph.edges.length
    error := o.error
    stamp := o.stamp }

/-- The preview page. -/
def generate (text : List Char) (graph : Graph) (index : Location.Index) (o : Options) :
    Except Span.Outside String :=
  (content text graph index o).map fun c => String.ofList c.render

end ThreatTree.Page
