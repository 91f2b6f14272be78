import ThreatTree.Document.Malformed
import ThreatTree.Document.Basic
import ThreatTree.Text.Lines

/-!
# Documents as they are usually written

A document is usually written with its title first, then with the four sections, each with
its key at the left margin and with one entry after the other. An entry starts with a hyphen,
the id and the label; predecessors and backward edges may follow, in lists over several lines
or in brackets.

`Document.outline` writes a document this way. Labels, titles and ids are written as they are,
so what is written is only the document again if they need no quotes.
-/

namespace ThreatTree

namespace Outline

/-- How a list of ids is written. -/
inductive Style where
  | block
  | brackets
  deriving DecidableEq, Repr

/-- A list of an entry: the key that it stands under, and how it is written. -/
structure Listing where
  key : Reserved
  style : Style
  deriving DecidableEq, Repr

/-- The ids of a node that stand under a key. -/
def idsUnder (n : Node) : Reserved → List String
  | .predecessors => n.predecessors
  | .backwards => n.backwards

/-- The lines of a list of ids. -/
def Listing.lines (ids : List String) (l : Listing) : List (List Char) :=
  let start := "  ".toList ++ l.key.name.toList ++ [':']
  match l.style with
  | .block => start :: ids.map fun id => "  - ".toList ++ id.toList
  | .brackets =>
    [start ++ [' ', '['] ++ Text.join [',', ' '] (ids.map String.toList) ++ [']']]

/-- The first line of an entry. -/
def firstLine (n : Node) : List Char :=
  "- ".toList ++ n.id.toList ++ [':', ' '] ++ n.label.toList

/-- The lines of an entry. -/
def entryLines (listings : Node → List Listing) (n : Node) : List (List Char) :=
  firstLine n :: (listings n).flatMap fun l => l.lines (idsUnder n l.key)

/-- The line that opens a section. -/
def keyLine (c : Category) : List Char := c.sectionName.toList ++ [':']

/-- The lines of a section, with empty lines in front. -/
def sectionLines (d : Document) (listings : Node → List Listing) (gap : Category → Nat)
    (c : Category) : List (List Char) :=
  List.replicate (gap c) [] ++ keyLine c :: (d.listed c).flatMap (entryLines listings)

def titleLine (d : Document) : List Char := "title: ".toList ++ d.title.toList

end Outline

namespace Document

/-- The lines of a document. `listings` says which lists each node has, and `gap` how many
empty lines stand before a section. -/
def outlineLines (d : Document) (listings : Node → List Outline.Listing)
    (gap : Category → Nat) : List (List Char) :=
  Outline.titleLine d :: Category.all.flatMap (Outline.sectionLines d listings gap)

/-- The text of a document: its lines, and `tail` empty ones. With a single empty line in the
end, every other line has a line end. -/
def outline (d : Document) (listings : Node → List Outline.Listing) (gap : Category → Nat)
    (tail : Nat) : List Char :=
  Text.join ['\n'] (d.outlineLines listings gap ++ List.replicate tail [])

end Document

end ThreatTree
