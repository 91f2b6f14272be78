import ThreatTree.Yaml.Node
import ThreatTree.Yaml.Load

/-!
# Trees of data

A data file of texts, lists and mappings, without anchors and tags, shows a tree. A tree has
tokens, which is how a lexer sees the file; it has nodes, numbered from the root down, each part
in front of the next one; and it has a value. The keys of its mappings are texts.

A list under a key is not indented, so it has no tokens of its own around its items; any other
list has. An empty list stands in brackets.
-/

namespace ThreatTree.Yaml

/-- A scalar without a tag that stands for a text. -/
structure Word where
  chars : List Char
  isPlain : Bool
  isText : Node.scalarTag false none isPlain chars = .str

namespace Word

def token (w : Word) : Token := .scalar w.chars w.isPlain

def node (w : Word) : Node := ⟨.str, .text w.chars⟩

def value (w : Word) : Value := .str (String.ofList w.chars)

end Word

mutual

/-- Data of texts, lists and mappings. -/
inductive Tree where
  | text (w : Word)
  | list (items : Tree.Items)
  | mapping (entries : Tree.Entries)

inductive Tree.Items where
  | nil
  | cons (item : Tree) (rest : Tree.Items)

inductive Tree.Entries where
  | nil
  | cons (key : Word) (value : Tree) (rest : Tree.Entries)

end

namespace Tree

/-! ## Tokens -/

mutual

def tokens (isUnderKey : Bool) : Tree → List Token
  | .text w => [w.token]
  | .list .nil => [.flowSequenceStart, .flowSequenceEnd]
  | .list (.cons item rest) =>
    if isUnderKey then Items.tokens (.cons item rest)
    else .blockSequenceStart :: (Items.tokens (.cons item rest) ++ [.blockEnd])
  | .mapping entries => .blockMappingStart :: (Entries.tokens entries ++ [.blockEnd])

def Items.tokens : Items → List Token
  | .nil => []
  | .cons item rest => .blockEntry :: (Tree.tokens false item ++ Items.tokens rest)

def Entries.tokens : Entries → List Token
  | .nil => []
  | .cons key value rest =>
    .key :: key.token :: .value :: (Tree.tokens true value ++ Entries.tokens rest)

end

/-- The token may be the first one of a tree. -/
def opens (isUnderKey : Bool) : Token → Bool
  | .scalar _ _ | .flowSequenceStart | .blockSequenceStart | .blockMappingStart => true
  | .blockEntry => isUnderKey
  | _ => false

theorem exists_tokens_eq (isUnderKey : Bool) (t : Tree) :
    ∃ u us, t.tokens isUnderKey = u :: us ∧ opens isUnderKey u = true := by
  match t with
  | .text w => exact ⟨_, _, rfl, rfl⟩
  | .list .nil => exact ⟨_, _, rfl, rfl⟩
  | .list (.cons item rest) => cases isUnderKey <;> exact ⟨_, _, rfl, rfl⟩
  | .mapping entries => exact ⟨_, _, rfl, rfl⟩

/-- No list starts behind the last entry of a mapping. -/
theorem Entries.exists_tokens_append_eq (entries : Entries) (rest : List Token) :
    ∃ u us, entries.tokens ++ .blockEnd :: rest = u :: us ∧ u ≠ .blockEntry := by
  match entries with
  | .nil => exact ⟨_, _, rfl, nofun⟩
  | .cons key value entries => exact ⟨_, _, rfl, nofun⟩

/-! ## Nodes -/

mutual

/-- The number of nodes. -/
def size : Tree → Nat
  | .text _ => 1
  | .list items => 1 + items.size
  | .mapping entries => 1 + entries.size

def Items.size : Items → Nat
  | .nil => 0
  | .cons item rest => item.size + rest.size

def Entries.size : Entries → Nat
  | .nil => 0
  | .cons _ value rest => 1 + value.size + rest.size

end

/-- The numbers of items whose nodes are numbered from `k` on. -/
def Items.ids (k : Nat) : Items → List Nat
  | .nil => []
  | .cons item rest => k :: rest.ids (k + item.size)

def Entries.ids (k : Nat) : Entries → List (Nat × Nat)
  | .nil => []
  | .cons _ value rest => (k, k + 1) :: rest.ids (k + 1 + value.size)

mutual

/-- The nodes of a tree, numbered from `k` on. -/
def nodes (k : Nat) : Tree → List Node
  | .text w => [w.node]
  | .list items => ⟨.seq, .items (items.ids (k + 1))⟩ :: items.nodes (k + 1)
  | .mapping entries => ⟨.map, .entries (entries.ids (k + 1))⟩ :: entries.nodes (k + 1)

def Items.nodes (k : Nat) : Items → List Node
  | .nil => []
  | .cons item rest => item.nodes k ++ rest.nodes (k + item.size)

def Entries.nodes (k : Nat) : Entries → List Node
  | .nil => []
  | .cons key value rest =>
    key.node :: (value.nodes (k + 1) ++ rest.nodes (k + 1 + value.size))

end

mutual

theorem length_nodes (k : Nat) : ∀ t : Tree, (t.nodes k).length = t.size
  | .text _ => rfl
  | .list items => by simp [nodes, size, Items.length_nodes, Nat.add_comm]
  | .mapping entries => by simp [nodes, size, Entries.length_nodes, Nat.add_comm]

theorem Items.length_nodes (k : Nat) : ∀ items : Items, (items.nodes k).length = items.size
  | .nil => rfl
  | .cons item rest => by simp [Items.nodes, Items.size, length_nodes, Items.length_nodes]

theorem Entries.length_nodes (k : Nat) :
    ∀ entries : Entries, (entries.nodes k).length = entries.size
  | .nil => rfl
  | .cons _ value rest => by
    simp only [Entries.nodes, Entries.size, List.length_cons, List.length_append, length_nodes,
      Entries.length_nodes]
    omega

end

theorem size_pos (t : Tree) : 0 < t.size := by
  cases t <;> rw [size] <;> omega

theorem Items.lt_of_mem_ids (items : Items) {k j : Nat} (hj : j ∈ items.ids k) :
    k ≤ j ∧ j < k + items.size := by
  match items with
  | .nil => simp [Items.ids] at hj
  | .cons item rest =>
    rw [Items.ids, List.mem_cons] at hj
    rw [Items.size]
    have hpos := item.size_pos
    obtain rfl | hj := hj
    · omega
    · have hrest := rest.lt_of_mem_ids hj
      omega

/-- A key stands right in front of its value. -/
theorem Entries.lt_of_mem_ids (entries : Entries) {k : Nat} {e : Nat × Nat}
    (he : e ∈ entries.ids k) : k ≤ e.1 ∧ e.2 = e.1 + 1 ∧ e.2 < k + entries.size := by
  match entries with
  | .nil => simp [Entries.ids] at he
  | .cons key value rest =>
    rw [Entries.ids, List.mem_cons] at he
    rw [Entries.size]
    have hpos := value.size_pos
    obtain rfl | he := he
    · dsimp only
      omega
    · have hrest := rest.lt_of_mem_ids he
      omega

theorem Entries.nodup_keys (entries : Entries) (k : Nat) :
    ((entries.ids k).map (·.1)).Nodup := by
  match entries with
  | .nil => exact List.nodup_nil
  | .cons key value rest =>
    rw [Entries.ids, List.map_cons, List.nodup_cons]
    refine ⟨fun hmem => ?_, rest.nodup_keys _⟩
    obtain ⟨e, he, hk⟩ := List.mem_map.mp hmem
    have hrest := rest.lt_of_mem_ids he
    dsimp only at hk
    omega

mutual

/-- How many collections are open at a time. -/
def height : Tree → Nat
  | .text _ => 0
  | .list items => 1 + items.height
  | .mapping entries => 1 + entries.height

def Items.height : Items → Nat
  | .nil => 0
  | .cons item rest => max item.height rest.height

def Entries.height : Entries → Nat
  | .nil => 0
  | .cons _ value rest => max value.height rest.height

end

/-! ## Values -/

mutual

def value : Tree → Value
  | .text w => w.value
  | .list items => .list items.values
  | .mapping entries => .mapping (Value.Entries.ofPairs entries.values)

def Items.values : Items → List Value
  | .nil => []
  | .cons item rest => item.value :: rest.values

def Entries.values : Entries → List (Value × Value)
  | .nil => []
  | .cons key value rest => (key.value, value.value) :: rest.values

end

end Tree

end ThreatTree.Yaml
