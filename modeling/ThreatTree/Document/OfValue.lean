import ThreatTree.Document.Basic
import ThreatTree.Document.Malformed
import ThreatTree.Distinct
import ThreatTree.Value.Literal
import ThreatTree.Yaml.Load

/-!
# Reading a document

Each section lists entries in one of three shapes: an id with a label; the same with the keys
`from` and `backwards` beside the id; or an id with a record that holds the label and these
keys. `Document.ofValue` checks the shape, and the first offending part in the order of the
document is reported. References to nodes that are not declared are no matter of shape.

A message shows a key that is not a text. A number too long to be written makes this
impossible, and is an error of its own.

A text is a data file whose value describes a document. A file that has no document, or whose
document is null, is refused as empty.
-/

namespace ThreatTree

open Value (Entries)

/-- Why a value is no document. -/
inductive Refusal where
  | malformed (m : Malformed)
  /-- The message about the value cannot be written. -/
  | unwritable
  deriving DecidableEq, Repr

namespace Refusal

/-- Refuse the part at a path. -/
def throwAt {α : Type} (path : Path) (problem : Problem) : Except Refusal α :=
  throw (.malformed ⟨path, problem⟩)

def orUnwritable {α : Type} : Option α → Except Refusal α
  | some a => pure a
  | none => throw .unwritable

end Refusal

open Refusal

/-! ## References -/

/-- A reference to a predecessor, with the label of the edge from it. -/
structure Reference where
  source : String
  label : Option String
  deriving DecidableEq, Repr

namespace Reference

/-- A reference is an id, or a mapping of one id to a label or null. -/
def ofValue (path : Path) : Value → Except Refusal Reference
  | .str id => pure ⟨id, none⟩
  | .mapping [(key, value)] =>
    match key with
    | .str id =>
      match value with
      | .null => pure ⟨id, none⟩
      | .str label => pure ⟨id, some label⟩
      | _ => throwAt path .edgeLabelNotText
    | _ => throwAt path .notReference
  | _ => throwAt path .notReference

/-- The predecessor and the label, if the label is not empty. -/
def labelled? (r : Reference) : Option (String × String) :=
  match r.label with
  | some label => if label.isEmpty then none else some (r.source, label)
  | none => none

/-- The first label, not empty, of each predecessor that has one. -/
def edgeLabels (rs : List Reference) : List (String × String) :=
  distinctBy (·.1) (rs.filterMap labelled?)

end Reference

/-- Read the items of a list, each at its own path. -/
def readItems {α : Type} (path : Path) (read : Path → Value → Except Refusal α) :
    Nat → List Value → Except Refusal (List α)
  | _, [] => pure []
  | i, v :: vs => do
    let a ← read (path ++ [.item i]) v
    let as ← readItems path read (i + 1) vs
    return a :: as

/-- The references under `from`: none, one id, or a list. -/
def readReferences (path : Path) : Option Value → Except Refusal (List Reference)
  | none | some .null => pure []
  | some (.str id) => pure [⟨id, none⟩]
  | some (.list items) => readItems path Reference.ofValue 0 items
  | some _ => throwAt path .notList

/-! ## Backward edges -/

def textOf? : Value → Option String
  | .str s => some s
  | _ => none

/-- The given predecessors, each of which must be listed. -/
def readListed (path : Path) (preds ids : List String) : Except Refusal (List String) :=
  match ids.find? fun id => !preds.contains id with
  | some id => throwAt path (.notPredecessor id)
  | none => pure (distinct ids)

/-- The predecessors under `backwards`: none, all, one, or a list. -/
def readBackwards (path : Path) (preds : List String) :
    Option Value → Except Refusal (List String)
  | none | some .null | some (.bool false) => pure []
  | some (.bool true) => pure (distinct preds)
  | some (.str id) => readListed path preds [id]
  | some (.list items) =>
    match items.mapM textOf? with
    | some ids => readListed path preds ids
    | none => throwAt path .notBackwards
  | some _ => throwAt path .notBackwards

/-! ## Entries -/

/-- The key is `from` or `backwards`. -/
def isReserved : Value → Bool
  | .str s => s == Reserved.predecessors.name || s == Reserved.backwards.name
  | _ => false

/-- What an entry says about its node, before references are read. -/
structure Entry where
  id : String
  label : String
  predecessors : Option Value
  backwards : Option Value

/-- The only key of an entry that is not reserved, with its value. -/
def readId (path : Path) (entries : Entries) : Except Refusal (String × Value) :=
  match entries.filter fun e => !isReserved e.1 with
  | [] => throwAt path .missingId
  | [(key, value)] =>
    match key with
    | .str id => pure (id, value)
    | key => do
      let shown ← orUnwritable key.literal?
      throwAt path (.idNotText shown)
  | several => do
    let shown ← orUnwritable (several.mapM fun e => e.1.text?)
    throwAt path (.severalIds shown)

/-- The value of a reserved key, which may stand inside the record or beside it. -/
def readReserved (path : Path) (key : Reserved) (record siblings : Entries) :
    Except Refusal (Option Value) :=
  match Entries.get? key.name record, Entries.get? key.name siblings with
  | some _, some _ => throwAt path (.givenTwice key)
  | some v, none => pure (some v)
  | none, v => pure v

/-- The parts of an entry. -/
def readEntry (path : Path) : Value → Except Refusal Entry
  | .mapping entries => do
    let (id, value) ← readId path entries
    match value with
    | .str label =>
      return ⟨id, label, Entries.get? Reserved.predecessors.name entries,
        Entries.get? Reserved.backwards.name entries⟩
    | .mapping record =>
      match Entries.get? "label" record with
      | none | some .null => throwAt path .missingLabel
      | some (.str label) =>
        let predecessors ← readReserved path .predecessors record entries
        let backwards ← readReserved path .backwards record entries
        return ⟨id, label, predecessors, backwards⟩
      | some _ => throwAt (path ++ [.field "label"]) .notText
    | .null => throwAt path .missingLabel
    | _ => throwAt path .labelNotText
  | _ => throwAt path .entryNotMapping

/-- The node of an entry. -/
def Node.ofEntry (category : Category) (path : Path) (e : Entry) : Except Refusal Node := do
  let refs ← readReferences (path ++ [.field Reserved.predecessors.name]) e.predecessors
  let preds := refs.map (·.source)
  let backwards ← readBackwards (path ++ [.field Reserved.backwards.name]) preds e.backwards
  if h : Text.allBlank e.id.toList = false then
    return ⟨e.id, e.label, category, preds, Reference.edgeLabels refs, backwards, h⟩
  else throwAt path .blankId

def Node.ofValue (category : Category) (path : Path) (v : Value) : Except Refusal Node := do
  let e ← readEntry path v
  Node.ofEntry category path e

/-! ## Documents -/

namespace Document

/-- A text that may be missing or null. -/
def readText (name : String) (entries : Entries) : Except Refusal (Option String) :=
  match Entries.get? name entries with
  | none | some .null => pure none
  | some (.str s) => pure (some s)
  | some _ => throwAt [.field name] .notText

/-- The nodes of a section, which may be missing or null. -/
def readSection (category : Category) (entries : Entries) : Except Refusal (List Node) :=
  let path := [.field category.sectionName]
  match Entries.get? category.sectionName entries with
  | none | some .null => pure []
  | some (.list items) => readItems path (Node.ofValue category) 0 items
  | some _ => throwAt path .notList

/-- The document that a value describes. -/
def ofValue : Value → Except Refusal Document
  | .mapping entries => do
    let title ← readText "title" entries
    let theme ← readText "theme" entries
    let facts ← readSection .fact entries
    let attacks ← readSection .attack entries
    let mitigations ← readSection .mitigation entries
    let goals ← readSection .goal entries
    return ⟨title.getD defaultTitle, theme, facts, attacks, mitigations, goals⟩
  | _ => throwAt [] .notMapping

/-! ## Texts -/

/-- Why a text is no document. -/
inductive ReadError where
  | unreadable (e : Yaml.Error)
  | refused (r : Refusal)
  deriving DecidableEq, Repr

/-- Read a document from text. -/
def ofText (text : String) : Except ReadError Document :=
  match Yaml.load text.toList with
  | .error e => .error (.unreadable e)
  | .ok .null => .error (.refused (.malformed ⟨[], .noDocument⟩))
  | .ok v => (ofValue v).mapError .refused

/-- The document that a new file starts with. -/
def seed : String :=
  String.join <|
    ["title: New Attack Tree", "",
      "facts:", "- reality: Starting point", "  from: []", "",
      "attacks:", "- initial_attack: Initial attack vector", "  from:", "  - reality", "",
      "mitigations:", "- defense: Defense mechanism", "  from:", "  - initial_attack", "",
      "goals:", "- compromise: System compromise", "  from:", "  - initial_attack"].map (· ++ "\n")

end Document

end ThreatTree
