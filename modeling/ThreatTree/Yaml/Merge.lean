import ThreatTree.Yaml.Node

/-!
# Merging mappings

A key `<<` of a mapping is no key of its value. It lends the mapping the entries of another
mapping, or of several in a list, of which the last goes first; what is lent stands in front of
the mapping's own entries. What a mapping lends has its own merges done. Only the kind of
content counts here, not the tag.

Merging changes the nodes: the merge keys go away, and the special key `=` becomes a text. Both
show wherever the same node is used again.
-/

namespace ThreatTree.Yaml

open Error

namespace Nodes

/-! ## Views of a node -/

def tagOf (g : Nodes) (id : Nat) : Tag := g[id]?.elim .null (·.tag)

def contentOf (g : Nodes) (id : Nat) : Content := g[id]?.elim (.text []) (·.content)

/-- The entries of a mapping; other nodes have none. -/
def entriesOf (g : Nodes) (id : Nat) : List (Nat × Nat) :=
  match g.contentOf id with
  | .entries es => es
  | _ => []

def setEntries (g : Nodes) (id : Nat) (es : List (Nat × Nat)) : Nodes :=
  g.setIfInBounds id ⟨g.tagOf id, .entries es⟩

/-- The node as a text, if it is the special key `=`. -/
def valueKeyToText (g : Nodes) (id : Nat) : Nodes :=
  if g.tagOf id = .value then g.setIfInBounds id ⟨.str, g.contentOf id⟩ else g

/-- The value of the first merge key among entries, and the other entries. -/
def takeMerge (g : Nodes) : List (Nat × Nat) → Option (Nat × List (Nat × Nat))
  | [] => none
  | (k, v) :: rest =>
    if g.tagOf k = .merge then some (v, rest)
    else (g.takeMerge rest).map fun (lender, others) => (lender, (k, v) :: others)

/-- The number of merge keys of all mappings. -/
def mergeCount (g : Nodes) : Nat :=
  g.foldl (fun n node =>
    match node.content with
    | .entries es => n + (es.filter fun e => g.tagOf e.1 = .merge).length
    | _ => n) 0

end Nodes

/-! ## Merging -/

/-- Steps that change the nodes. -/
abbrev Merging := StateT Nodes (Except Error)

namespace Merging

/-- Put entries in front of those of a mapping, and turn its special keys to texts. -/
def finish (id : Nat) (lent : List (Nat × Nat)) : Merging Unit :=
  modify fun g =>
    let es := lent ++ g.entriesOf id
    es.foldl (fun g e => g.valueKeyToText e.1) (g.setEntries id es)

/-- Take the merge keys off a mapping, and give the entries that they lend after those given.
The first argument bounds the number of merge keys on the way. -/
def collect : Nat → Nat → List (Nat × Nat) → Merging (List (Nat × Nat))
  | 0, _, lent => return lent
  | fuel + 1, id, lent => do
    let g ← get
    match g.takeMerge (g.entriesOf id) with
    | none => return lent
    | some (lender, others) =>
      set (g.setEntries id others)
      let entriesOf (lender : Nat) : Merging (List (Nat × Nat)) := do
        match (← get).contentOf lender with
        | .entries _ =>
          finish lender (← collect fuel lender [])
          return (← get).entriesOf lender
        | _ => throw (malformed "only mappings can be merged")
      let more ← match g.contentOf lender with
        | .items ids => do
          let parts ← ids.mapM entriesOf
          pure parts.reverse.flatten
        | _ => entriesOf lender
      collect fuel id (lent ++ more)

end Merging

/-- Merge what the merge keys of a mapping lend. -/
def Nodes.merge (g : Nodes) (id : Nat) : Except Error Nodes :=
  (·.2) <$> (do Merging.finish id (← Merging.collect (g.mergeCount + 1) id [])).run g

end ThreatTree.Yaml
