import ThreatTree.Text.Blank
import ThreatTree.Text.Lines
import ThreatTree.Text.Word

/-!
# What a single line says

The location index looks at one line at a time and needs to know four things of it: whether
it is a key at the left margin, whether it is a list item with a key, whether it is a list
item that refers to a given node, and where a list in brackets after `from:` refers to a
given node.

Lines are lists of characters without line feeds.
-/

namespace ThreatTree.Location

open Text

/-- The text ends here, or white space follows. -/
def atBlankOrEnd : List Char → Bool
  | [] => true
  | c :: _ => isBlank c

/-! ## Keys -/

/-- The parts before and after the first colon. -/
def cutColon : List Char → Option (List Char × List Char)
  | [] => none
  | c :: rest =>
    if c = ':' then some ([], rest) else (cutColon rest).map fun p => (c :: p.1, p.2)

/-- The key of a line that starts at the left margin: everything up to the first colon, which
must be followed by white space or end the line. Comments and list items are no keys. -/
def topLevelKey? : List Char → Option (List Char)
  | [] => none
  | c :: rest =>
    if isBlank c || c == '#' || c == '-' then none
    else match cutColon rest with
      | some (before, after) => if atBlankOrEnd after then some (c :: before) else none
      | none => none

def isTopLevelKey (line : List Char) : Bool := (topLevelKey? line).isSome

/-- The parts before and after the first colon that ends a word. -/
def cutKey : List Char → Option (List Char × List Char)
  | [] => none
  | c :: rest =>
    if c == ':' && atBlankOrEnd rest then some ([], rest)
    else (cutKey rest).map fun p => (c :: p.1, p.2)

/-- A list item with a key. -/
structure ItemKey where
  indent : Nat
  id : List Char
  after : List Char
  deriving DecidableEq, Repr

/-- White space, a hyphen and a blank, a key, and a colon that ends a word. The key starts
with no white space, colon or hash sign. -/
def itemKey? (line : List Char) : Option ItemKey :=
  match trimStart line with
  | '-' :: ' ' :: c :: rest =>
    if isBlank c || c == ':' || c == '#' then none
    else (cutKey rest).map fun p =>
      ⟨line.length - (trimStart line).length, c :: p.1, p.2⟩
  | _ => none

/-! ## References in list items -/

/-- A reference ends here: nothing follows, or a colon or a comment does. -/
def endsReference (s : List Char) : Bool :=
  match trimStart s with
  | [] => true
  | c :: _ => c == ':' || c == '#'

def isQuote (c : Char) : Bool := c == '"' || c == '\''

/-- The text starts with a reference to the node, without quotes. -/
def startsReference (id s : List Char) : Bool := (dropPiece? id s).any endsReference

/-- The text starts with a reference to the node, in quotes. -/
def startsQuoted (id : List Char) : List Char → Bool
  | [] => false
  | q :: rest => isQuote q && match dropPiece? id rest with
    | some (q' :: after) => q' == q && endsReference after
    | _ => false

/-- A list item that refers to a node. -/
structure ItemReference where
  indent : Nat
  quoted : Bool
  deriving DecidableEq, Repr

/-- White space, a hyphen and a blank, and a reference to the whole id. -/
def itemReference? (id line : List Char) : Option ItemReference :=
  let indent := line.length - (trimStart line).length
  match trimStart line with
  | '-' :: ' ' :: rest =>
    if startsQuoted id rest then some ⟨indent, true⟩
    else if startsReference id rest then some ⟨indent, false⟩
    else none
  | _ => none

/-! ## References in brackets -/

/-- A list in brackets: what is left of its opening bracket, the bracket included, and what is
between the brackets. -/
def bracketList? (s : List Char) : Option (Nat × List Char) :=
  match dropPiece? "from:".toList s with
  | none => none
  | some rest =>
    match trimStart rest with
    | '[' :: inside =>
      let content := inside.takeWhile (· ≠ ']')
      if content.length < inside.length then some (s.length - inside.length, content) else none
    | _ => none

/-- The first list in brackets after a whole word `from:`. `prev` is the character before the
text and `column` the place of the text in its line. -/
def findBracketList? (prev : Option Char) (column : Nat) :
    List Char → Option (Nat × List Char)
  | [] => none
  | c :: rest =>
    match if prev.any isWord then none else bracketList? (c :: rest) with
    | some (offset, content) => some (column + offset, content)
    | none => findBracketList? (some c) (column + 1) rest

/-- An id in brackets ends here: nothing follows, or a brace or a colon that ends a word. -/
def endsId (s : List Char) : Bool :=
  match trimStart s with
  | [] => true
  | c :: rest => c == '\x7d' || (c == ':' && atBlankOrEnd rest)

/-- The id up to the first place where it can end. -/
def bareId : List Char → List Char
  | [] => []
  | c :: rest => if endsId (c :: rest) then [] else c :: bareId rest

/-- The id up to the first closing quote after which it can end. -/
def quotedId? (q : Char) : List Char → Option (List Char)
  | [] => none
  | c :: rest =>
    if c == q && endsId rest then some [] else (quotedId? q rest).map (c :: ·)

/-- What follows an opening brace and blanks, if there is a brace. -/
def afterBrace : List Char → List Char
  | '\x7b' :: rest => trimStart rest
  | s => s

/-- The place and the text of the id that a text starts with, perhaps in quotes. The text is at
the given place. -/
def readId (place : Nat) : List Char → Nat × List Char
  | [] => (place, [])
  | q :: rest =>
    match if isQuote q then quotedId? q rest else none with
    | some id => (place + 1, id)
    | none => (place, bareId (q :: rest))

/-- The place and the text of the id in an item of a list in brackets. The item is an id,
perhaps in quotes, perhaps after a brace. -/
def bracketItem (item : List Char) : Nat × List Char :=
  let s := afterBrace (trimStart item)
  readId (item.length - s.length) s

/-- The first item with the given id, the first item being at the given column. -/
def findItem? (id : List Char) (column : Nat) : List (List Char) → Option Nat
  | [] => none
  | item :: items =>
    let (place, found) := bracketItem item
    if found = id then some (column + place) else findItem? id (column + item.length + 1) items

/-- The column of a reference to the node in the first list in brackets. `prev` and `column`
are as for `findBracketList?`. -/
def bracketReference? (prev : Option Char) (column : Nat) (id s : List Char) : Option Nat :=
  match findBracketList? prev column s with
  | none => none
  | some (start, content) => findItem? id start (splitOn ',' content)

end ThreatTree.Location
