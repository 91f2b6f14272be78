import ThreatTree.Yaml.Filling

/-!
# Reading data files

The value of a data file is the value of its root. Values are put together from the parts up: a
collection gets its value after its parts. A collection that is a part of itself has no end; it
is unfolded to a fixed depth, deeper than any rule about values looks.
-/

namespace ThreatTree.Yaml

namespace Filling

/-- The parts of a collection. -/
def parts : Filling → List Nat
  | .list ids => ids
  | .pairs es | .set es | .mapping es => es.flatMap fun e => [e.1, e.2]

end Filling

/-! ## The order of collections -/

/-- How far the walk through the parts of a node has come. -/
inductive Mark where
  | unseen
  | entered
  | left
  deriving DecidableEq, Repr

/-- A walk through the parts of a root: the marks of the nodes, the nodes that were left, last
first, and whether a node was met inside itself. -/
structure Walk where
  marks : Array Mark
  order : List Nat
  isCyclic : Bool

namespace Walk

/-- Walk through a node and its parts. The first argument bounds the depth. -/
def visit (slots : Slots) : Nat → Walk → Nat → Walk
  | 0, w, _ => w
  | fuel + 1, w, id =>
    match w.marks[id]?.getD .left with
    | .left => w
    | .entered => { w with isCyclic := true }
    | .unseen =>
      let parts := match slots[id]? with
        | some (.collection f) => f.parts
        | _ => []
      let w := parts.foldl (visit slots fuel) { w with marks := w.marks.setIfInBounds id .entered }
      { w with marks := w.marks.setIfInBounds id .left, order := id :: w.order }

def ofRoot (slots : Slots) (root : Nat) : Walk :=
  visit slots (slots.size + 1) ⟨Array.replicate slots.size .unseen, [], false⟩ root

end Walk

/-! ## Values -/

/-- How often a value that contains itself is unfolded. -/
def unfoldings : Nat := 8

/-- Set a key. A node is the same key as itself, even if its value is no number. -/
def setById (key : Nat) (keyValue value : Value) :
    List (Nat × Value × Value) → List (Nat × Value × Value)
  | [] => [(key, keyValue, value)]
  | (k, kv, v) :: rest =>
    if k = key || Value.sameKey kv keyValue then (k, kv, value) :: rest
    else (k, kv, v) :: setById key keyValue value rest

/-- The entries of a mapping, where the values of its parts are known. -/
def entriesOfParts (value : Nat → Value) (es : List (Nat × Nat)) : Value.Entries :=
  (es.foldl (fun acc e => setById e.1 (value e.1) (value e.2) acc) []).map (·.2)

namespace Slot

/-- The value of a node, where the values of its parts are known. -/
def value (part : Nat → Value) : Slot → Value
  | .unknown => .null
  | .scalar v => v
  | .collection (.list ids) => .list (ids.map part)
  | .collection (.pairs es) => .list (es.map fun e => .tuple [part e.1, part e.2])
  | .collection (.set es) => .set ((entriesOfParts part es).map (·.1))
  | .collection (.mapping es) => .mapping (entriesOfParts part es)

/-- The value of a node before its parts are known. -/
def stub : Slot → Value
  | .collection (.set _) => .set []
  | .collection (.mapping _) => .mapping []
  | .collection _ => .list []
  | s => s.value fun _ => .null

end Slot

namespace Slots

/-- Put the values together once, in the given order. -/
def combine (slots : Slots) (order : List Nat) (values : Array Value) : Array Value :=
  order.foldl (fun vs id =>
    vs.setIfInBounds id ((slots[id]?.getD .unknown).value fun p => vs[p]?.getD .null)) values

/-- The value of a node. -/
def valueOf (slots : Slots) (root : Nat) : Value :=
  let w := Walk.ofRoot slots root
  let passes := if w.isCyclic then unfoldings else 1
  let values := Nat.repeat (slots.combine w.order.reverse) passes (slots.map Slot.stub)
  values[root]?.getD .null

end Slots

/-! ## Data files -/

/-- The value of a data file; null if it has no document. -/
def load (text : List Char) : Except Error Value := do
  match ← Nodes.ofTokens (.ofText text) with
  | (none, _) => return .null
  | (some root, nodes) => return (← nodes.slots root).valueOf root

end ThreatTree.Yaml
