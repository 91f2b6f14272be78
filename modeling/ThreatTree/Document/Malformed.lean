import ThreatTree.Document.Category

/-!
# What can be wrong with a document

A value that is no attack tree is refused with the path to the offending part and the problem
with it.
-/

namespace ThreatTree

/-- A step from a value to one of its parts. -/
inductive Step where
  | field (name : String)
  | item (index : Nat)
  deriving DecidableEq, Repr

/-- The way from a document to one of its parts. -/
abbrev Path := List Step

namespace Path

/-- One more step of a written path. -/
def extend (text : String) : Step → String
  | .field name => if text.isEmpty then name else text ++ "." ++ name
  | .item i => text ++ "[" ++ toString i ++ "]"

/-- Fields are separated by points, places in a list are in brackets. -/
def text (p : Path) : String := p.foldl extend ""

end Path

/-- The keys of an entry that do not name a node. -/
inductive Reserved where
  | predecessors
  | backwards
  deriving DecidableEq, Repr

def Reserved.name : Reserved → String
  | predecessors => "from"
  | backwards => "backwards"

/-- What is wrong with a part of a document. -/
inductive Problem where
  | noDocument
  | notMapping
  | notText
  | notList
  | entryNotMapping
  | missingId
  | severalIds (ids : List String)
  | idNotText (shown : String)
  | blankId
  | missingLabel
  | labelNotText
  | givenTwice (key : Reserved)
  | notReference
  | edgeLabelNotText
  | notBackwards
  | notPredecessor (id : String)
  deriving DecidableEq, Repr

def Problem.text : Problem → String
  | noDocument => "document is empty"
  | notMapping => "document must be a mapping"
  | notText => "must be a string"
  | notList => "must be a list"
  | entryNotMapping => "must be a mapping of id to label"
  | missingId => "missing id"
  | severalIds ids => "declares more than one id: " ++ ", ".intercalate ids
  | idNotText shown => "id must be a string, got " ++ shown
  | blankId => "is invalid: Value error, Node id cannot be empty"
  | missingLabel => "missing label"
  | labelNotText => "label must be a string"
  | givenTwice key => "declares '" ++ key.name ++ "' twice"
  | notReference => "must be a node id"
  | edgeLabelNotText => "edge label must be a string"
  | notBackwards => "must be true or a list of node ids"
  | notPredecessor id => "names '" ++ id ++ "' which is not listed in from"

/-- A problem and where it is. -/
structure Malformed where
  path : Path
  problem : Problem
  deriving DecidableEq, Repr

/-- The path, unless it is the document itself, and the problem. -/
def Malformed.message (m : Malformed) : String :=
  if m.path.isEmpty then m.problem.text else m.path.text ++ " " ++ m.problem.text

end ThreatTree
