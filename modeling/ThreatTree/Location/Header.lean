import ThreatTree.Location.Line
import ThreatTree.Document.Category

/-!
# Headers of entries

The declaration of a node starts with a list item that has the id as its key, such as
`- reality: Starting point`. Such a line is a header if it stands in one of the four sections
and is indented as the first list item with a key in that section; deeper ones belong to
references.
-/

namespace ThreatTree.Location

/-- A line that starts an entry. -/
structure Header where
  line : Nat
  indent : Nat
  id : String
  category : Category
  deriving DecidableEq, Repr

/-- The section that a key at the left margin opens, if it names one. -/
def sectionOf? (key : List Char) : Option Category :=
  Category.ofSection? (String.ofList (Text.trim key))

/-- The headers from a line on. `current` is the section of the line, and `indent` that of the
first list item with a key in it, if there was one. -/
def headersFrom (current : Option Category) (indent : Option Nat) :
    Nat → List (List Char) → List Header
  | _, [] => []
  | i, line :: rest =>
    match topLevelKey? line with
    | some key => headersFrom (sectionOf? key) none (i + 1) rest
    | none =>
      match current, itemKey? line with
      | some category, some k =>
        let first := indent.getD k.indent
        let more := headersFrom current (some first) (i + 1) rest
        if k.indent = first then ⟨i, k.indent, String.ofList k.id, category⟩ :: more else more
      | _, _ => headersFrom current indent (i + 1) rest

/-- The headers of a text, given by its lines. -/
def headers (lines : List (List Char)) : List Header := headersFrom none none 0 lines

end ThreatTree.Location
