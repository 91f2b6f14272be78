import ThreatTree.Location.Header

/-!
# What a header is

The lines that start an entry, said without a scan: `IsHeader lines h` looks at the last key at
the left margin before the line, and at the first list item with a key after that.
-/

namespace ThreatTree.Location

/-- The line is white space of a length, a hyphen and a blank, the id, and a colon that ends a
word. A colon inside the id does not end a word. -/
def IsItem (line : List Char) (indent : Nat) (id : List Char) : Prop :=
  ∃ margin after : List Char,
    line = margin ++ ['-', ' '] ++ id ++ ':' :: after
      ∧ margin.length = indent ∧ (∀ c ∈ margin, Text.isBlank c = true)
      ∧ atBlankOrEnd after = true
      ∧ (∃ c, id.head? = some c ∧ Text.isBlank c = false ∧ c ≠ ':' ∧ c ≠ '#')
      ∧ ∀ before rest, id = before ++ ':' :: rest → atBlankOrEnd (rest ++ ':' :: after) = false

/-- Line `k` is the last key at the left margin before line `i`, and line `i` is none. -/
def IsUnderKey (lines : List (List Char)) (k i : Nat) (key : List Char) : Prop :=
  k < i ∧ (lines[k]?).bind topLevelKey? = some key
    ∧ ∀ j, k < j → j ≤ i → ((lines[j]?).bind topLevelKey?) = none

/-- Line `j` is the first list item with a key after line `k`. -/
def IsFirstItem (lines : List (List Char)) (k j indent : Nat) : Prop :=
  k < j ∧ (∃ line id, lines[j]? = some line ∧ IsItem line indent id)
    ∧ ∀ m line n id, k < m → m < j → lines[m]? = some line → ¬ IsItem line n id

/-- The line of the header stands under the key of a section, is a list item with the id as its
key, and is indented as the first such item there. -/
def IsHeader (lines : List (List Char)) (h : Header) : Prop :=
  ∃ k key line, IsUnderKey lines k h.line key ∧ sectionOf? key = some h.category
    ∧ lines[h.line]? = some line ∧ IsItem line h.indent h.id.toList
    ∧ ∃ j, IsFirstItem lines k j h.indent

end ThreatTree.Location
