import ThreatTree.Document.Basic
import ThreatTree.Record.Field

/-!
# Documents from records

A node or a document can also be given directly by the fields of its record. Nothing is
checked across fields, so a node may be listed under any section and name predecessors in its
edge labels that it does not have.
-/

namespace ThreatTree

open Value (Entries)
open Record Checked

/-- A mapping of predecessors to labels counts as a list of pairs. -/
def pairsOfValue : Value → Value
  | .mapping entries => .list (entries.map fun e => .tuple [e.1, e.2])
  | v => v

/-- An id with the proof that it is not blank. -/
def idOfValue (v : Value) : Checked { s : String // Text.allBlank s.toList = false } :=
  match text v with
  | .valid s => if h : Text.allBlank s.toList = false then valid ⟨s, h⟩ else fail .badValue
  | .invalid ps => .invalid ps

def Node.ofRecord (entries : Entries) : Checked Node :=
  (fun id label category preds edgeLabels backwards =>
      ⟨id.1, label, category, preds, edgeLabels, backwards, id.2⟩)
    <$> required entries "id" idOfValue
    <*> required entries "label" text
    <*> required entries "category" (choice Category.ofName? .notListed)
    <*> optional entries "predecessors" [] (list text)
    <*> optional entries "edge_labels" [] (fun v => list textPair (pairsOfValue v))
    <*> optional entries "backwards" [] (list text)

namespace Document

/-- The nodes of a section. -/
def sectionOfRecord (entries : Entries) (category : Category) : Checked (List Node) :=
  optional entries category.sectionName [] (list (record Node.ofRecord))

def ofRecord (entries : Entries) : Checked Document :=
  Document.mk
    <$> optional entries "title" defaultTitle text
    <*> optional entries "theme" none (nullable text)
    <*> sectionOfRecord entries .fact
    <*> sectionOfRecord entries .attack
    <*> sectionOfRecord entries .mitigation
    <*> sectionOfRecord entries .goal

end Document

end ThreatTree
