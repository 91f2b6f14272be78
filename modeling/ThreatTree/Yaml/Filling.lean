import ThreatTree.Yaml.Merge
import ThreatTree.Yaml.Scalar

/-!
# Filling collections

Nodes get their values from the root down. A scalar has its value at once; a collection starts
empty and is filled in the next round, when its parts are started in their turn, so that a
collection can be a part of itself. A file with several faults is refused for the one that
shows first on this way.

The result is a table of slots, one for each node that is reached.
-/

namespace ThreatTree.Yaml

open Error

/-- What a collection holds once it is filled; parts by number. -/
inductive Filling where
  | list (parts : List Nat)
  | pairs (parts : List (Nat × Nat))
  | set (parts : List (Nat × Nat))
  | mapping (parts : List (Nat × Nat))
  deriving DecidableEq, Repr

/-- What is known of the value of a node. -/
inductive Slot where
  | unknown
  | scalar (v : Value)
  | collection (f : Filling)
  deriving Repr

abbrev Slots := Array Slot

/-- The empty collection that the tag of a collection stands for. -/
def Filling.start? : Tag → Option Filling
  | .seq => some (.list [])
  | .omap | .pairs => some (.pairs [])
  | .set => some (.set [])
  | .map => some (.mapping [])
  | _ => none

/-! ## Texts of nodes -/

namespace Nodes

/-- The text of a node whose tag is that of a scalar. A mapping lends the text under its key `=`.
The first argument bounds the number of mappings on the way. -/
def textOf (g : Nodes) : Nat → Nat → Except Error (List Char)
  | 0, _ => throw tooDeep
  | fuel + 1, id =>
    match g.contentOf id with
    | .text s => pure s
    | .items _ => throw (malformed "a scalar was expected")
    | .entries es =>
      match es.find? fun e => g.tagOf e.1 = .value with
      | some e => g.textOf fuel e.2
      | none => throw (malformed "a scalar was expected")

/-- The value of a node whose tag is not that of a collection. A mapping lends no text to a time
stamp. -/
def scalarOf (g : Nodes) (id : Nat) : Except Error Value := do
  let tag := g.tagOf id
  if tag.isScalar then
    let s ← g.textOf (Node.depthLimit + 1) id
    match tag, g.contentOf id with
    | .timestamp, .entries _ => throw notText
    | _, _ => scalarValue tag s
  else throw (malformed "a tag that has no values")

end Nodes

/-! ## Rounds -/

/-- The state between two steps. `next` are the collections to be filled in the next round, last
first. -/
structure Stage where
  nodes : Nodes
  slots : Slots
  next : List Nat

abbrev Filler := StateT Stage (Except Error)

namespace Filler

def setSlot (id : Nat) (slot : Slot) : Filler Unit :=
  modify fun s => { s with slots := s.slots.setIfInBounds id slot }

def slotOf (s : Stage) (id : Nat) : Slot := s.slots[id]?.getD .unknown

/-- Give a node its slot, unless it has one. -/
def start (id : Nat) : Filler Unit := do
  let s ← get
  match slotOf s id, Filling.start? (s.nodes.tagOf id) with
  | .unknown, some f =>
    setSlot id (.collection f)
    modify fun s => { s with next := id :: s.next }
  | .unknown, none => do setSlot id (.scalar (← s.nodes.scalarOf id))
  | _, _ => return

/-- Start a key, which must not be a collection, and its value. -/
def startEntry (e : Nat × Nat) : Filler Unit := do
  start e.1
  if let .collection _ := slotOf (← get) e.1 then
    throw (malformed "a collection cannot be a key")
  start e.2

/-- Start the parts of a mapping or a set, after its merges. -/
def startEntries (id : Nat) : Filler (List (Nat × Nat)) := do
  match (← get).nodes.contentOf id with
  | .entries _ =>
    let nodes ← (← get).nodes.merge id
    modify fun s => { s with nodes := nodes }
    let es := nodes.entriesOf id
    es.forM startEntry
    return es
  | _ => throw (malformed "a mapping was expected")

/-- Start the parts of a pair, which is a mapping of one entry. -/
def startPair (id : Nat) : Filler (Nat × Nat) := do
  match (← get).nodes.contentOf id with
  | .entries [e] =>
    start e.1
    start e.2
    return e
  | _ => throw (malformed "a mapping of one entry was expected")

def itemsOf (id : Nat) : Filler (List Nat) := do
  match (← get).nodes.contentOf id with
  | .items ids => return ids
  | _ => throw (malformed "a list was expected")

/-- Fill a collection. -/
def fill (id : Nat) : Filler Unit := do
  match slotOf (← get) id with
  | .collection (.list _) =>
    let ids ← itemsOf id
    ids.forM start
    setSlot id (.collection (.list ids))
  | .collection (.pairs _) =>
    let es ← (← itemsOf id).mapM startPair
    setSlot id (.collection (.pairs es))
  | .collection (.set _) => do setSlot id (.collection (.set (← startEntries id)))
  | .collection (.mapping _) => do setSlot id (.collection (.mapping (← startEntries id)))
  | _ => return

/-- Rounds up to the one that starts no collection. The first argument bounds their number. -/
def rounds : Nat → Filler Unit
  | 0 => return
  | fuel + 1 => do
    let ids := (← get).next.reverse
    if ids.isEmpty then return
    modify fun s => { s with next := [] }
    ids.forM fill
    rounds fuel

end Filler

/-- The slots of the nodes that are reached from a root. Every round fills a collection that none
before it filled. -/
def Nodes.slots (g : Nodes) (root : Nat) : Except Error Slots := do
  let stage : Stage := ⟨g, Array.replicate g.size .unknown, []⟩
  let (_, s) ← (do Filler.start root; Filler.rounds (g.size + 1)).run stage
  return s.slots

end ThreatTree.Yaml
