import ThreatTree.Failure
import ThreatTree.Location.Index

/-!
# Sessions

A session owns the text of one attack tree while it is edited, and the latest render that
succeeded. Edits are queued, the latest only, and a cycle renders the queued text. A cycle
that fails leaves the render in place and reports; one whose failure is not reported only
uses up the queued text.

Clicks on the drawing are answered from the render, as long as its text is the current one.
-/

namespace ThreatTree

open Location (Index)

/-- Everything that one successful cycle produced. -/
structure Render where
  revision : Nat
  text : String
  document : Document
  graph : Graph
  index : Index
  svg : Option String
  deriving DecidableEq, Repr

namespace Session

/-- What stays the same in a session. -/
structure Setup where
  registry : Registry
  layout : Option Layout
  engine : Layout.Engine

end Session

/-- The state of a session. `pending` is the queued text, and `calls` the number of calls of
the layout engine. -/
structure Session where
  theme : Option String
  text : String
  result : Option Render
  error : Option String
  revision : Nat
  pending : Option String
  calls : Nat
  deriving DecidableEq, Repr

namespace Session

/-- A new session, with a theme or none. -/
def start (theme : Option String) : Session := ⟨theme, "", none, none, 0, none, 0⟩

/-! ## One cycle -/

/-- The drawing of a graph, if there is a layout. -/
def Setup.draw (setup : Setup) (calls : Nat) (g : Graph) : Except Failure (Option String) :=
  match setup.layout with
  | none => pure none
  | some l => ((l.renderSvg setup.engine calls g.dot).mapError .layout).map some

/-- The document and the graph of a text. -/
def Setup.compile (setup : Setup) (theme : Option String) (text : String) :
    Except Failure (Document × Graph) := do
  let d ← (Document.ofText text).mapError .document
  let g ← (d.compile setup.registry theme).mapError .graph
  return (d, g)

/-- The number of calls of the engine that a compiled text leads to. -/
def Setup.callsFor (setup : Setup) : Nat := if setup.layout.isSome then 1 else 0

/-- Render a text, and count the calls of the engine. -/
def Setup.cycle (setup : Setup) (theme : Option String) (text : String) (revision calls : Nat) :
    Except Failure Render × Nat :=
  match setup.compile theme text with
  | .error f => (.error f, calls)
  | .ok (d, g) =>
    ((setup.draw calls g).map fun svg =>
      ⟨revision, text, d, g, .build text.toList d, svg⟩, calls + setup.callsFor)

/-! ## Operations -/

variable (setup : Setup)

/-- Queue a text in place of the one that is queued. -/
def submit (s : Session) (text : String) : Session :=
  { s with text := text, pending := some text, revision := s.revision + 1 }

/-- Take the outcome of a cycle into the state. The answer is the latest render, or the
failure if it is not reported. -/
def settle (s : Session) (outcome : Except Failure Render × Nat) :
    Session × Except Failure (Option Render) :=
  let s := { s with pending := none, calls := outcome.2 }
  match outcome.1 with
  | .ok r => ({ s with result := some r, error := none }, .ok (some r))
  | .error f =>
    match f.message? with
    | some message => ({ s with error := some message }, .ok s.result)
    | none => (s, .error f)

/-- Render the queued text, if there is one. A blank text has no render. -/
def flush (s : Session) : Session × Except Failure (Option Render) :=
  match s.pending with
  | none => (s, .ok s.result)
  | some text =>
    if Text.allBlank text.toList then
      ({ s with pending := none, result := none, error := none }, .ok none)
    else s.settle (setup.cycle s.theme text s.revision s.calls)

/-- Queue a text and render it. -/
def update (s : Session) (text : String) : Session × Except Failure (Option Render) :=
  (s.submit text).flush setup

/-- Change the theme and render the text again. -/
def setTheme (s : Session) (theme : Option String) :
    Session × Except Failure (Option Render) :=
  { s with theme := theme }.update setup s.text

/-! ## Navigation -/

/-- The index of the render, if it was made from the current text. -/
def currentIndex? (s : Session) : Option Index :=
  (s.result.filter fun r => r.text = s.text).map (·.index)

/-- The offsets of what `find` finds in the index, in the current text. -/
def locate (s : Session) (find : Index → Option Span) :
    Except Span.Outside (Option (Nat × Nat)) :=
  match s.currentIndex?.bind find with
  | none => .ok none
  | some span => (span.offsets s.text.toList).map some

/-- Where the element stands that was drawn with a title. -/
def navigate (s : Session) (title : String) : Except Span.Outside (Option (Nat × Nat)) :=
  s.locate (·.element? title)

def navigateToNode (s : Session) (id : String) : Except Span.Outside (Option (Nat × Nat)) :=
  s.locate (·.node? id)

def navigateToEdge (s : Session) (source target : String) :
    Except Span.Outside (Option (Nat × Nat)) :=
  s.locate (·.edge? source target)

/-! ## Runs -/

/-- An operation on a session. -/
inductive Op where
  | submit (text : String)
  | flush
  | update (text : String)
  | setTheme (theme : Option String)
  | navigate (title : String)
  | navigateToNode (id : String)
  | navigateToEdge (source target : String)
  deriving DecidableEq, Repr

/-- What an operation answers: a queued text has no answer, a cycle has a render, and a click
has a place in the text. -/
inductive Answer where
  | none
  | render (r : Except Failure (Option Render))
  | place (r : Except Span.Outside (Option (Nat × Nat)))

/-- Carry out an operation. -/
def step (s : Session) : Op → Session × Answer
  | .submit text => (s.submit text, .none)
  | .flush => let (s, r) := s.flush setup; (s, .render r)
  | .update text => let (s, r) := s.update setup text; (s, .render r)
  | .setTheme theme => let (s, r) := s.setTheme setup theme; (s, .render r)
  | .navigate title => (s, .place (s.navigate title))
  | .navigateToNode id => (s, .place (s.navigateToNode id))
  | .navigateToEdge source target => (s, .place (s.navigateToEdge source target))

/-- The state after operations. -/
def run (s : Session) (ops : List Op) : Session := ops.foldl (fun s op => (s.step setup op).1) s

end Session

end ThreatTree
