import ThreatTree.Yaml.Lexer
import ThreatTree.Yaml.Tag

/-!
# From tokens to nodes

A data file is a graph of nodes: scalars, sequences and mappings, each with a tag. The nodes are
numbered, and a collection lists the numbers of its parts. An alias is the number of the node
with the anchor again, so that a node may be a part of several collections, and even of itself.

The grammar is followed by recursive descent. Each function reads one construct and leaves
the rest of the tokens in the state. Their first argument bounds the recursion; every call
uses up a token or goes one level down, so a small multiple of the number of tokens is enough.
-/

namespace ThreatTree.Yaml

open Error

/-- What a node holds; parts are given by their numbers. -/
inductive Content where
  | text (s : List Char)
  | items (parts : List Nat)
  | entries (parts : List (Nat × Nat))
  deriving DecidableEq, Repr

/-- A node of a data file. -/
structure Node where
  tag : Tag
  content : Content
  deriving DecidableEq, Repr

/-- The nodes of a data file, by number. -/
abbrev Nodes := Array Node

namespace Node

/-! ## State of the descent -/

/-- The tokens that are left, what to report when they run out, the nodes so far, the anchors
with their nodes, the meaning of tag handles, and the number of open collections. -/
structure Input where
  tokens : List Token
  fault : Option Error
  nodes : Nodes
  anchors : List (List Char × Nat)
  handles : List (List Char × List Char)
  depth : Nat

abbrev Parser := StateT Input (Except Error)

/-- The number of collections that may be open at a time. -/
def depthLimit : Nat := 485

/-- Take a number for a node that is still to be read. -/
def reserve : Parser Nat := do
  let s ← get
  set { s with nodes := s.nodes.push ⟨.null, .text []⟩ }
  return s.nodes.size

/-- Enter the node with a number. -/
def define (id : Nat) (n : Node) : Parser Nat := do
  modify fun s => { s with nodes := s.nodes.setIfInBounds id n }
  return id

/-- A new node. -/
def enter (n : Node) : Parser Nat := do define (← reserve) n

/-- A node that is not written. -/
def empty : Parser Nat := enter ⟨.null, .text []⟩

/-- Read what stands in a collection. -/
def inside {α : Type} (p : Parser α) : Parser α := do
  let depth := (← get).depth
  if depthLimit ≤ depth then throw tooDeep
  modify fun s => { s with depth := depth + 1 }
  let a ← p
  modify fun s => { s with depth := depth }
  return a

/-- The next token, which stays. -/
def peek : Parser Token := do
  match (← get).tokens with
  | t :: _ => return t
  | [] => throw ((← get).fault.getD (malformed "the text breaks off"))

def advance : Parser Unit := modify fun s => { s with tokens := s.tokens.tail }

/-- Use up the next token if it is the given one. -/
def accept (t : Token) : Parser Bool := do
  if (← peek) = t then
    advance
    return true
  else return false

/-- Use up the next token, which must be the given one. -/
def expect (t : Token) : Parser Unit := do
  if !(← accept t) then throw (malformed "an unexpected token")

/-! ## Properties -/

/-- The handles that need no directive. -/
def defaultHandles : List (List Char × List Char) :=
  [(['!'], ['!']), (['!', '!'], Tag.home.toList)]

/-- The full address of a tag. A lone exclamation mark leaves the tag to the content. -/
def address? (t : TagName) : Parser (Option (List Char)) := do
  match t.handle with
  | none => return if t.suffix = ['!'] then none else some t.suffix
  | some handle =>
    match (← get).handles.lookup handle with
    | none => throw (malformed "an unknown tag handle")
    | some start =>
      let address := start ++ t.suffix
      return if address = ['!'] then none else some address

/-- What stands before the content of a node. -/
structure Properties where
  anchor : Option (List Char)
  tag : Option TagName

/-- An anchor and a tag, in either order, both optional. -/
def properties : Parser Properties := do
  match ← peek with
  | .anchor name =>
    advance
    match ← peek with
    | .tag t =>
      advance
      return ⟨some name, some t⟩
    | _ => return ⟨some name, none⟩
  | .tag t =>
    advance
    match ← peek with
    | .anchor name =>
      advance
      return ⟨some name, some t⟩
    | _ => return ⟨none, some t⟩
  | _ => return ⟨none, none⟩

/-- Enter the anchor of a node, which must be new. -/
def declare (name : List Char) (id : Nat) : Parser Unit := do
  if ((← get).anchors.lookup name).isSome then throw (malformed "an anchor is set twice")
  modify fun s => { s with anchors := (name, id) :: s.anchors }

/-- The tag of a collection: its own, or the given one. -/
def collectionTag (address : Option (List Char)) (default : Tag) : Tag :=
  address.elim default Tag.ofAddress

/-- The tag of a scalar. Without a tag, the form of a plain scalar decides, and anything in
quotes is a text; a lone exclamation mark leaves the decision to the form. -/
def scalarTag (isMarked : Bool) (address : Option (List Char)) (isPlain : Bool)
    (text : List Char) : Tag :=
  match address with
  | some a => Tag.ofAddress a
  | none => if isPlain || isMarked then Tag.ofPlain text else .str

/-- A node without content: it must have a property. -/
def missing (props : Properties) (address : Option (List Char)) : Parser Node :=
  if props.anchor.isSome || props.tag.isSome then
    return ⟨scalarTag true address true [], .text []⟩
  else throw (malformed "a node was expected")

/-! ## The grammar -/

mutual

/-- A node. Outside brackets (`block`) it may be a block collection; as the value of a key it
may be a list that is not indented (`indentless`). -/
def node (block indentless : Bool) : Nat → Parser Nat
  | 0 => throw (malformed "nested too deeply")
  | n + 1 => do
    match ← peek with
    | .alias name =>
      advance
      match (← get).anchors.lookup name with
      | some id => return id
      | none => throw (malformed "an unknown anchor")
    | _ =>
      let props ← properties
      let address ← match props.tag with
        | none => pure none
        | some t => address? t
      let t ← peek
      let content : Parser Node :=
        match t with
        | .scalar text isPlain => do
          advance
          return ⟨scalarTag props.tag.isSome address isPlain text, .text text⟩
        | .flowSequenceStart => do
          advance
          return ⟨collectionTag address .seq, .items (← inside (flowItems true n))⟩
        | .flowMappingStart => do
          advance
          return ⟨collectionTag address .map, .entries (← inside (flowPairs true n))⟩
        | .blockSequenceStart =>
          if block then do
            advance
            return ⟨collectionTag address .seq, .items (← inside (blockItems n))⟩
          else missing props address
        | .blockMappingStart =>
          if block then do
            advance
            return ⟨collectionTag address .map, .entries (← inside (blockPairs n))⟩
          else missing props address
        | .blockEntry =>
          if indentless then do
            return ⟨collectionTag address .seq, .items (← inside (indentlessItems n))⟩
          else missing props address
        | _ => missing props address
      let id ← reserve
      if let some name := props.anchor then declare name id
      define id (← content)

/-- A part of a construct: a node, or an empty one if the next token ends the part. -/
def part (block indentless : Bool) (ends : List Token) : Nat → Parser Nat
  | 0 => throw (malformed "nested too deeply")
  | n + 1 => do
    if ends.contains (← peek) then empty else node block indentless n

/-- The items of a block list, up to its end. -/
def blockItems : Nat → Parser (List Nat)
  | 0 => throw (malformed "nested too deeply")
  | n + 1 => do
    if ← accept .blockEntry then
      let item ← part true false [.blockEntry, .blockEnd] n
      return item :: (← blockItems n)
    else
      expect .blockEnd
      return []

/-- The items of a list that is not indented. It has no token for its end. -/
def indentlessItems : Nat → Parser (List Nat)
  | 0 => throw (malformed "nested too deeply")
  | n + 1 => do
    if ← accept .blockEntry then
      let item ← part true false [.blockEntry, .key, .value, .blockEnd] n
      return item :: (← indentlessItems n)
    else return []

/-- The entries of a block mapping, up to its end. -/
def blockPairs : Nat → Parser (List (Nat × Nat))
  | 0 => throw (malformed "nested too deeply")
  | n + 1 => do
    let ends := [.key, .value, .blockEnd]
    match ← peek with
    | .key =>
      advance
      let k ← part true true ends n
      let v ← if ← accept .value then part true true ends n else empty
      return (k, v) :: (← blockPairs n)
    | _ =>
      expect .blockEnd
      return []

/-- The items of a list in brackets. A key makes an item a mapping of one entry. -/
def flowItems (isFirst : Bool) : Nat → Parser (List Nat)
  | 0 => throw (malformed "nested too deeply")
  | n + 1 => do
    if ← accept .flowSequenceEnd then return []
    if !isFirst then expect .flowEntry
    match ← peek with
    | .key =>
      advance
      let id ← reserve
      let entry ← inside do
        let k ← part false false [.value, .flowEntry, .flowSequenceEnd] n
        let v ← if ← accept .value then part false false [.flowEntry, .flowSequenceEnd] n
          else empty
        return (k, v)
      let item ← define id ⟨.map, .entries [entry]⟩
      return item :: (← flowItems false n)
    | .flowSequenceEnd =>
      advance
      return []
    | _ =>
      let item ← node false false n
      return item :: (← flowItems false n)

/-- The entries of a mapping in braces. -/
def flowPairs (isFirst : Bool) : Nat → Parser (List (Nat × Nat))
  | 0 => throw (malformed "nested too deeply")
  | n + 1 => do
    if ← accept .flowMappingEnd then return []
    if !isFirst then expect .flowEntry
    match ← peek with
    | .key =>
      advance
      let k ← part false false [.value, .flowEntry, .flowMappingEnd] n
      let v ← if ← accept .value then part false false [.flowEntry, .flowMappingEnd] n
        else empty
      return (k, v) :: (← flowPairs false n)
    | .flowMappingEnd =>
      advance
      return []
    | _ =>
      let k ← node false false n
      let v ← empty
      return (k, v) :: (← flowPairs false n)

end

/-! ## Documents -/

/-- Directives in front of a document: at most one version, whose first number is one, and at
most one meaning for each handle. -/
def directives : Nat → Bool → List (List Char × List Char) →
    Parser (List (List Char × List Char))
  | 0, _, handles => return handles
  | n + 1, hasVersion, handles => do
    match ← peek with
    | .directive (.version major) =>
      advance
      if hasVersion then throw (malformed "a second version")
      if major ≠ 1 then throw (malformed "an unknown version")
      directives n true handles
    | .directive (.tag handle start) =>
      advance
      if (handles.lookup handle).isSome then throw (malformed "a second meaning of a handle")
      directives n hasVersion ((handle, start) :: handles)
    | .directive .other =>
      advance
      directives n hasVersion handles
    | _ => return handles

/-- Skip document ends. -/
def documentEnds : Nat → Parser Unit
  | 0 => return
  | n + 1 => do if ← accept .documentEnd then documentEnds n

/-- The root of the only document of a file, if the file has a document. -/
def document (fuel : Nat) : Parser (Option Nat) := do
  let root ← match ← peek with
    | .directive _ | .documentStart => explicit
    | .streamEnd => pure none
    | _ => do
      modify fun s => { s with handles := defaultHandles }
      some <$> node true false fuel
  documentEnds fuel
  if (← peek) ≠ .streamEnd then throw (malformed "a second document")
  return root
where
  explicit : Parser (Option Nat) := do
    let handles ← directives fuel false []
    expect .documentStart
    modify fun s => { s with handles := handles ++ defaultHandles }
    match ← peek with
    | .directive _ | .documentStart | .documentEnd | .streamEnd => some <$> empty
    | _ => some <$> node true false fuel

end Node

/-- The nodes of a file, and the root if the file has a document. -/
def Nodes.ofTokens (s : TokenStream) : Except Error (Option Nat × Nodes) := do
  let fuel := 4 * s.tokens.length + 4
  let (root, s) ← (Node.document fuel).run ⟨s.tokens, s.fault, #[], [], [], 0⟩
  return (root, s.nodes)

end ThreatTree.Yaml
