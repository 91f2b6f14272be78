import ThreatTree.Location.Line

/-!
# Lists in brackets as they are written

A list in brackets has items between commas. An item is an id, perhaps in quotes, and perhaps
in braces with a label after it; blanks may stand around an item. `Bracketed.line` writes such a
list after `from:`, and `Bracketed.column?` counts where the first item with a given id has it.
-/

namespace ThreatTree.Location.Bracketed

/-- The quotes around an id. -/
inductive Quotes where
  | none
  | single
  | double
  deriving DecidableEq, Repr

def Quotes.mark : Quotes → List Char
  | none => []
  | single => ['\'']
  | double => ['"']

/-- An item with the number of blanks before and after it. -/
structure Item where
  before : Nat
  quotes : Quotes
  id : List Char
  label : Option (List Char)
  after : Nat
  deriving DecidableEq, Repr

namespace Item

/-- What stands before the id, blanks apart. -/
def opening (i : Item) : List Char := (if i.label.isSome then ['\x7b'] else []) ++ i.quotes.mark

/-- What stands after the id, blanks apart. -/
def closing (i : Item) : List Char :=
  i.quotes.mark ++ match i.label with
    | some label => [':', ' '] ++ label ++ ['\x7d']
    | none => []

/-- The item with the blanks around it. -/
def text (i : Item) : List Char :=
  List.replicate i.before ' ' ++ i.opening ++ i.id ++ i.closing ++ List.replicate i.after ' '

end Item

/-- The line of a list of predecessors. -/
def line (indent : List Char) (items : List Item) : List Char :=
  indent ++ "from: [".toList ++ Text.join [','] (items.map Item.text) ++ [']']

/-- The column of the id in the first item that has it, the first item starting at the given
column. -/
def column? (id : List Char) (start : Nat) : List Item → Option Nat
  | [] => none
  | i :: items =>
    if i.id = id then some (start + i.before + i.opening.length)
    else column? id (start + i.text.length + 1) items

end ThreatTree.Location.Bracketed
