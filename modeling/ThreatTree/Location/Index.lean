import ThreatTree.Location.Header
import ThreatTree.Location.Span
import ThreatTree.Document.Basic
import ThreatTree.Distinct

/-!
# The location index

The index tells where the nodes and edges of a document stand in a text. It is found by
looking at the lines of the text, so it also serves for a document that does not quite fit
the text; what is not found has no span.

A node stands at the first header with its id. Its block goes from there to the next header,
the next key at the left margin, or a list item that is indented less. An edge stands where
the block of its target refers to its source for the first time.
-/

namespace ThreatTree.Location

/-- Where the nodes and edges of a document stand. A block is given by its first line and the
line after its last. -/
structure Index where
  nodes : List (String × Span)
  edges : List ((String × String) × Span)
  blocks : List (String × Nat × Nat)
  deriving DecidableEq, Repr

/-! ## Blocks -/

/-- A list item that is indented less than `indent`. -/
def isOuterItem (indent : Nat) (line : List Char) : Bool :=
  let body := Text.trimStart line
  (Text.dropPiece? ['-', ' '] body).isSome && line.length - body.length < indent

/-- The number of lines up to the end of a block. `isHeader` says which lines start an entry,
and the first line is the one with the given number. -/
def blockLength (isHeader : Nat → Bool) (indent : Nat) : Nat → List (List Char) → Nat
  | _, [] => 0
  | i, line :: rest =>
    if isHeader i || isTopLevelKey line || isOuterItem indent line then 0
    else blockLength isHeader indent (i + 1) rest + 1

/-- The line after the last line of the block of a header. -/
def blockEnd (lines : List (List Char)) (hs : List Header) (h : Header) : Nat :=
  h.line + 1 + blockLength (fun i => hs.any fun k => k.line = i) h.indent (h.line + 1)
    (lines.drop (h.line + 1))

/-! ## References -/

/-- The reference to a node in a record on the line of a header. -/
def recordReference? (id : List Char) (h : Header) (line : List Char) : Option Span :=
  match itemKey? line with
  | none => none
  | some k =>
    match Text.trimStart k.after with
    | '\x7b' :: _ =>
      (bracketReference? (some ':') (line.length - k.after.length) id k.after).map fun column =>
        ⟨h.line, column, id.length⟩
    | _ => none

/-- The reference to a node on a line of a block: a list item, or an item in brackets. -/
def lineReference? (id : List Char) (i : Nat) (line : List Char) : Option Span :=
  match itemReference? id line with
  | some r => some ⟨i, r.indent, id.length + if r.quoted then 4 else 2⟩
  | none => (bracketReference? none 0 id line).map fun column => ⟨i, column, id.length⟩

/-- The first reference to a node on the given lines. -/
def firstReference? (id : List Char) : Nat → List (List Char) → Option Span
  | _, [] => none
  | i, line :: rest => (lineReference? id i line).or (firstReference? id (i + 1) rest)

/-- The first reference to a node in the block of a header. -/
def reference? (lines : List (List Char)) (hs : List Header) (h : Header) (id : List Char) :
    Option Span :=
  ((lines[h.line]?).bind (recordReference? id h)).or
    (firstReference? id (h.line + 1)
      ((lines.take (blockEnd lines hs h)).drop (h.line + 1)))

/-! ## Building the index -/

namespace Index

/-- The first header with an id. -/
def header? (hs : List Header) (id : String) : Option Header := hs.find? fun h => h.id = id

/-- The span of a declaration: hyphen, blank, id and colon. -/
def declaration (h : Header) : Span := ⟨h.line, h.indent, h.id.length + 3⟩

/-- The span of an edge, if the target has a header and refers to the source. -/
def edgeSpan? (lines : List (List Char)) (hs : List Header) (e : String × String) :
    Option Span :=
  (header? hs e.2).bind fun h => reference? lines hs h e.1.toList

/-- The pairs of predecessor and node of a document, each once. -/
def documentEdges (d : Document) : List (String × String) :=
  distinct (d.nodes.flatMap fun n => n.predecessors.map (·, n.id))

/-- The index of a document in a text. -/
def build (text : List Char) (d : Document) : Index :=
  let lines := Text.lines text
  let hs := headers lines
  let ids := distinct d.nodeIds
  { nodes := ids.filterMap fun id => (header? hs id).map fun h => (id, declaration h)
    edges := (documentEdges d).filterMap fun e => (edgeSpan? lines hs e).map (e, ·)
    blocks := ids.filterMap fun id =>
      (header? hs id).map fun h => (id, h.line, blockEnd lines hs h) }

end Index

/-! ## Looking things up -/

/-- No span is recorded for a node or an edge. -/
inductive NotFound where
  | node (id : String)
  | edge (source target : String)
  deriving DecidableEq, Repr

def NotFound.message : NotFound → String
  | node id => "No source location for node '" ++ id ++ "'"
  | edge source target => "No source location for edge '" ++ source ++ "->" ++ target ++ "'"

/-- What stands on a line. -/
inductive Element where
  | node (id : String)
  | edge (source target : String)
  deriving DecidableEq, Repr

/-- All ways to cut a text at an arrow, the shortest first part first. -/
def arrowCuts : List Char → List (List Char × List Char)
  | '-' :: '>' :: rest =>
    ([], rest) :: (arrowCuts rest).map fun p => ('-' :: '>' :: p.1, p.2)
  | c :: rest => (arrowCuts rest).map fun p => (c :: p.1, p.2)
  | [] => []

namespace Index

def node? (ix : Index) (id : String) : Option Span := ix.nodes.lookup id

def edge? (ix : Index) (source target : String) : Option Span :=
  ix.edges.lookup (source, target)

/-- The span of a drawn element with the given title: a node, or else an edge whose ends are
joined by an arrow. -/
def element? (ix : Index) (title : String) : Option Span :=
  (ix.node? title).or <| (arrowCuts title.toList).findSome? fun p =>
    ix.edge? (String.ofList p.1) (String.ofList p.2)

def requireNode (ix : Index) (id : String) : Except NotFound Span :=
  (ix.node? id).elim (.error (.node id)) .ok

def requireEdge (ix : Index) (source target : String) : Except NotFound Span :=
  (ix.edge? source target).elim (.error (.edge source target)) .ok

/-- The edge that is referred to on a line, or else the node whose block has the line. -/
def elementAt (ix : Index) (line : Nat) : Option Element :=
  match ix.edges.find? fun e => e.2.line = line with
  | some ((source, target), _) => some (.edge source target)
  | none =>
    (ix.blocks.find? fun b => b.2.1 ≤ line ∧ line < b.2.2).map fun b => .node b.1

end Index

end ThreatTree.Location
