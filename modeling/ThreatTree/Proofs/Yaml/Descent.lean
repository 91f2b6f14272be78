import ThreatTree.Proofs.Yaml.Escape
import ThreatTree.Proofs.Yaml.Tree

/-!
# From the tokens of a tree to its nodes

Each function of the grammar reads what it stands for, leaves the tokens behind it, and puts new
nodes behind those that are there already. So the nodes of a tree depend only on how many nodes
stand in front of them, and the descent through a tree is an induction over the tree
(`Tree.run_node`).

The bound on the recursion is four times the number of tokens: a level of the tree takes up at
most two of its steps, and so does an item or an entry.
-/

namespace ThreatTree.Yaml

theorem map_ok {α β : Type} (f : α → β) (a : α) :
    f <$> (Except.ok a : Except Error α) = .ok (f a) := rfl

namespace Node

variable {t : Token} {ts us : List Token} {fault : Option Error} {g g' : Nodes}
  {anchors : List (List Char × Nat)} {handles : List (List Char × List Char)} {depth n : Nat}

/-! ## Steps of the descent -/

theorem run_peek : peek.run ⟨t :: ts, fault, g, anchors, handles, depth⟩
    = .ok (t, ⟨t :: ts, fault, g, anchors, handles, depth⟩) := rfl

theorem run_advance : advance.run ⟨t :: ts, fault, g, anchors, handles, depth⟩
    = .ok ((), ⟨ts, fault, g, anchors, handles, depth⟩) := rfl

theorem run_accept (u : Token) : (accept u).run ⟨t :: ts, fault, g, anchors, handles, depth⟩
    = if t = u then .ok (true, ⟨ts, fault, g, anchors, handles, depth⟩)
      else .ok (false, ⟨t :: ts, fault, g, anchors, handles, depth⟩) := by
  rw [accept, StateT.run_bind, run_peek, ok_bind]
  split <;> rfl

theorem run_expect : (expect t).run ⟨t :: ts, fault, g, anchors, handles, depth⟩
    = .ok ((), ⟨ts, fault, g, anchors, handles, depth⟩) := by
  rw [expect, StateT.run_bind, run_accept, if_pos rfl, ok_bind]
  rfl

theorem run_reserve : reserve.run ⟨ts, fault, g, anchors, handles, depth⟩
    = .ok (g.size, ⟨ts, fault, g.push ⟨.null, .text []⟩, anchors, handles, depth⟩) := rfl

theorem run_define (id : Nat) (x : Node) :
    (define id x).run ⟨ts, fault, g, anchors, handles, depth⟩
      = .ok (id, ⟨ts, fault, g.setIfInBounds id x, anchors, handles, depth⟩) := rfl

theorem run_inside {α : Type} {p : Parser α} {a : α} (hd : depth < depthLimit)
    (hp : p.run ⟨ts, fault, g, anchors, handles, depth + 1⟩
      = .ok (a, ⟨us, fault, g', anchors, handles, depth + 1⟩)) :
    (inside p).run ⟨ts, fault, g, anchors, handles, depth⟩
      = .ok (a, ⟨us, fault, g', anchors, handles, depth⟩) := by
  simp only [inside, StateT.run_bind, StateT.run_get, pure_bind, if_neg (Nat.not_le.mpr hd),
    StateT.run_modify, StateT.run_pure, hp, ok_bind]
  rfl

/-! ## Nodes -/

theorem push_append (g : Nodes) (x : Node) (xs : List Node) :
    g.push x ++ xs.toArray = g ++ (x :: xs).toArray := by
  apply Array.ext'
  simp

/-- A reserved number gets its node after the nodes behind it. -/
theorem setIfInBounds_push_append (g : Nodes) (x y : Node) (xs : List Node) :
    (g.push x ++ xs.toArray).setIfInBounds g.size y = g ++ (y :: xs).toArray := by
  apply Array.ext'
  simp

theorem setIfInBounds_push (g : Nodes) (x y : Node) :
    (g.push x).setIfInBounds g.size y = g.push y := by
  apply Array.ext'
  simp

theorem run_node_scalar (block indentless : Bool) (s : List Char) (p : Bool) :
    (node block indentless (n + 1)).run ⟨.scalar s p :: ts, fault, g, anchors, handles, depth⟩
      = .ok (g.size, ⟨ts, fault, g.push ⟨scalarTag false none p s, .text s⟩, anchors, handles,
        depth⟩) := by
  simp only [node, properties, StateT.run_bind, run_peek, ok_bind, StateT.run_pure, pure_bind,
    run_advance, run_reserve, run_define, setIfInBounds_push]
  rfl

theorem run_node_emptyList (block indentless : Bool) (hd : depth < depthLimit) :
    (node block indentless (n + 2)).run
        ⟨.flowSequenceStart :: .flowSequenceEnd :: ts, fault, g, anchors, handles, depth⟩
      = .ok (g.size, ⟨ts, fault, g.push ⟨.seq, .items []⟩, anchors, handles, depth⟩) := by
  have hitems (g : Nodes) : (flowItems true (n + 1)).run
      ⟨.flowSequenceEnd :: ts, fault, g, anchors, handles, depth + 1⟩
        = .ok ([], ⟨ts, fault, g, anchors, handles, depth + 1⟩) := by
    simp only [flowItems, StateT.run_bind, run_accept, if_true, ok_bind]
    rfl
  simp only [node, properties, StateT.run_bind, run_peek, ok_bind, StateT.run_pure, pure_bind,
    run_advance, run_reserve, run_define, run_inside hd (hitems _), setIfInBounds_push]
  rfl

section Collections

variable {ids : List Nat} {es : List (Nat × Nat)} {xs : List Node}

theorem run_node_list (block : Bool) (hd : depth < depthLimit)
    (hp : (indentlessItems n).run
        ⟨.blockEntry :: ts, fault, g.push ⟨.null, .text []⟩, anchors, handles, depth + 1⟩
      = .ok (ids, ⟨us, fault, g.push ⟨.null, .text []⟩ ++ xs.toArray, anchors, handles,
        depth + 1⟩)) :
    (node block true (n + 1)).run ⟨.blockEntry :: ts, fault, g, anchors, handles, depth⟩
      = .ok (g.size, ⟨us, fault, g ++ (⟨.seq, .items ids⟩ :: xs).toArray, anchors, handles,
        depth⟩) := by
  simp only [node, properties, StateT.run_bind, run_peek, ok_bind, StateT.run_pure, pure_bind,
    run_reserve, run_define, if_true, run_inside hd hp, setIfInBounds_push_append]
  rfl

theorem run_node_blockList (indentless : Bool) (hd : depth < depthLimit)
    (hp : (blockItems n).run ⟨ts, fault, g.push ⟨.null, .text []⟩, anchors, handles, depth + 1⟩
      = .ok (ids, ⟨us, fault, g.push ⟨.null, .text []⟩ ++ xs.toArray, anchors, handles,
        depth + 1⟩)) :
    (node true indentless (n + 1)).run
        ⟨.blockSequenceStart :: ts, fault, g, anchors, handles, depth⟩
      = .ok (g.size, ⟨us, fault, g ++ (⟨.seq, .items ids⟩ :: xs).toArray, anchors, handles,
        depth⟩) := by
  simp only [node, properties, StateT.run_bind, run_peek, ok_bind, StateT.run_pure, pure_bind,
    run_advance, run_reserve, run_define, if_true, run_inside hd hp, setIfInBounds_push_append]
  rfl

theorem run_node_mapping (indentless : Bool) (hd : depth < depthLimit)
    (hp : (blockPairs n).run ⟨ts, fault, g.push ⟨.null, .text []⟩, anchors, handles, depth + 1⟩
      = .ok (es, ⟨us, fault, g.push ⟨.null, .text []⟩ ++ xs.toArray, anchors, handles,
        depth + 1⟩)) :
    (node true indentless (n + 1)).run
        ⟨.blockMappingStart :: ts, fault, g, anchors, handles, depth⟩
      = .ok (g.size, ⟨us, fault, g ++ (⟨.map, .entries es⟩ :: xs).toArray, anchors, handles,
        depth⟩) := by
  simp only [node, properties, StateT.run_bind, run_peek, ok_bind, StateT.run_pure, pure_bind,
    run_advance, run_reserve, run_define, if_true, run_inside hd hp, setIfInBounds_push_append]
  rfl

end Collections

/-! ## Parts -/

theorem run_part {block indentless : Bool} {ends : List Token} (h : t ∉ ends) :
    (part block indentless ends (n + 1)).run ⟨t :: ts, fault, g, anchors, handles, depth⟩
      = (node block indentless n).run ⟨t :: ts, fault, g, anchors, handles, depth⟩ := by
  simp [part, run_peek, ok_bind, h]

section Lists

variable {i : Nat} {ids : List Nat} {vs : List Token} {g₁ g₂ : Nodes}

theorem run_indentlessItems_cons
    (hitem : (part true false [.blockEntry, .key, .value, .blockEnd] n).run
        ⟨ts, fault, g, anchors, handles, depth⟩
      = .ok (i, ⟨us, fault, g₁, anchors, handles, depth⟩))
    (hitems : (indentlessItems n).run ⟨us, fault, g₁, anchors, handles, depth⟩
      = .ok (ids, ⟨vs, fault, g₂, anchors, handles, depth⟩)) :
    (indentlessItems (n + 1)).run ⟨.blockEntry :: ts, fault, g, anchors, handles, depth⟩
      = .ok (i :: ids, ⟨vs, fault, g₂, anchors, handles, depth⟩) := by
  rw [indentlessItems]
  simp only [StateT.run_bind, run_accept, if_true, ok_bind, hitem, hitems]
  rfl

theorem run_indentlessItems_nil (ht : t ≠ .blockEntry) :
    (indentlessItems (n + 1)).run ⟨t :: ts, fault, g, anchors, handles, depth⟩
      = .ok ([], ⟨t :: ts, fault, g, anchors, handles, depth⟩) := by
  rw [indentlessItems, StateT.run_bind, run_accept, if_neg ht, ok_bind]
  rfl

theorem run_blockItems_cons
    (hitem : (part true false [.blockEntry, .blockEnd] n).run
        ⟨ts, fault, g, anchors, handles, depth⟩
      = .ok (i, ⟨us, fault, g₁, anchors, handles, depth⟩))
    (hitems : (blockItems n).run ⟨us, fault, g₁, anchors, handles, depth⟩
      = .ok (ids, ⟨vs, fault, g₂, anchors, handles, depth⟩)) :
    (blockItems (n + 1)).run ⟨.blockEntry :: ts, fault, g, anchors, handles, depth⟩
      = .ok (i :: ids, ⟨vs, fault, g₂, anchors, handles, depth⟩) := by
  rw [blockItems]
  simp only [StateT.run_bind, run_accept, if_true, ok_bind, hitem, hitems]
  rfl

theorem run_blockItems_nil :
    (blockItems (n + 1)).run ⟨.blockEnd :: ts, fault, g, anchors, handles, depth⟩
      = .ok ([], ⟨ts, fault, g, anchors, handles, depth⟩) := by
  rw [blockItems, StateT.run_bind, run_accept, if_neg nofun, ok_bind]
  simp only [Bool.false_eq_true, if_false, StateT.run_bind, run_expect, ok_bind]
  rfl

end Lists

section Mappings

variable {k v : Nat} {es : List (Nat × Nat)} {vs ws : List Token} {g₁ g₂ g₃ : Nodes}

theorem run_blockPairs_cons
    (hkey : (part true true [.key, .value, .blockEnd] n).run
        ⟨ts, fault, g, anchors, handles, depth⟩
      = .ok (k, ⟨.value :: us, fault, g₁, anchors, handles, depth⟩))
    (hvalue : (part true true [.key, .value, .blockEnd] n).run
        ⟨us, fault, g₁, anchors, handles, depth⟩
      = .ok (v, ⟨vs, fault, g₂, anchors, handles, depth⟩))
    (hentries : (blockPairs n).run ⟨vs, fault, g₂, anchors, handles, depth⟩
      = .ok (es, ⟨ws, fault, g₃, anchors, handles, depth⟩)) :
    (blockPairs (n + 1)).run ⟨.key :: ts, fault, g, anchors, handles, depth⟩
      = .ok ((k, v) :: es, ⟨ws, fault, g₃, anchors, handles, depth⟩) := by
  rw [blockPairs]
  simp only [StateT.run_bind, run_peek, run_advance, run_accept, if_true, ok_bind, hkey, hvalue,
    hentries]
  rfl

theorem run_blockPairs_nil :
    (blockPairs (n + 1)).run ⟨.blockEnd :: ts, fault, g, anchors, handles, depth⟩
      = .ok ([], ⟨ts, fault, g, anchors, handles, depth⟩) := by
  rw [blockPairs]
  simp only [StateT.run_bind, run_peek, ok_bind, run_expect]
  rfl

end Mappings

/-! ## Documents -/

theorem run_documentEnds (ht : t ≠ .documentEnd) (n : Nat) :
    (documentEnds n).run ⟨t :: ts, fault, g, anchors, handles, depth⟩
      = .ok ((), ⟨t :: ts, fault, g, anchors, handles, depth⟩) := by
  cases n with
  | zero => rfl
  | succ n =>
    rw [documentEnds, StateT.run_bind, run_accept, if_neg ht, ok_bind]
    rfl

/-- A file without directives and document marks is one node. -/
theorem run_document {id : Nat} (ht : Tree.opens false t = true)
    (h : (node true false n).run ⟨t :: ts, none, #[], [], defaultHandles, 0⟩
      = .ok (id, ⟨[.streamEnd], none, g, [], defaultHandles, 0⟩)) :
    (document n).run ⟨t :: ts, none, #[], [], [], 0⟩
      = .ok (some id, ⟨[.streamEnd], none, g, [], defaultHandles, 0⟩) := by
  have hends := @run_documentEnds .streamEnd [] none g [] defaultHandles 0 nofun n
  rw [document, StateT.run_bind, run_peek, ok_bind]
  dsimp only
  split
  · simp [Tree.opens] at ht
  · simp [Tree.opens] at ht
  · simp [Tree.opens] at ht
  · simp only [map_ok, StateT.run_bind, StateT.run_modify, pure_bind, StateT.run_map, h, hends,
      ok_bind, run_peek]
    rfl

end Node

/-! ## Trees -/

namespace Tree

open Yaml.Node

variable {fault : Option Error} {anchors : List (List Char × Nat)}
  {handles : List (List Char × List Char)}

theorem append_append (g : Nodes) (xs ys : List Node) :
    g ++ xs.toArray ++ ys.toArray = g ++ (xs ++ ys).toArray := by
  apply Array.ext'
  simp

theorem size_append_nodes (g : Nodes) (t : Tree) (k : Nat) :
    (g ++ (t.nodes k).toArray).size = g.size + t.size := by
  simp [length_nodes]

theorem run_part_tokens (ends : List Token) {isUnderKey : Bool} {t : Tree} {n depth : Nat}
    {rest : List Token} {g : Nodes} (hends : ∀ u ∈ ends, opens isUnderKey u = false) :
    (part true isUnderKey ends (n + 1)).run
        ⟨t.tokens isUnderKey ++ rest, fault, g, anchors, handles, depth⟩
      = (node true isUnderKey n).run
        ⟨t.tokens isUnderKey ++ rest, fault, g, anchors, handles, depth⟩ := by
  obtain ⟨u, us, hu, hopens⟩ := exists_tokens_eq isUnderKey t
  rw [hu, List.cons_append]
  exact run_part fun hmem => by simp [hends u hmem] at hopens

mutual

/-- The tokens of a tree give its nodes, numbered behind those that are there already. The list
under a key has no token for its end, so its items must not go on behind it. -/
theorem run_node (isUnderKey : Bool) (t : Tree) (n : Nat) (rest : List Token) (g : Nodes)
    (depth : Nat) (hn : 4 * (t.tokens isUnderKey).length ≤ n)
    (hd : depth + t.height ≤ depthLimit)
    (hrest : isUnderKey = true → ∃ u us, rest = u :: us ∧ u ≠ .blockEntry) :
    (node true isUnderKey n).run
        ⟨t.tokens isUnderKey ++ rest, fault, g, anchors, handles, depth⟩
      = .ok (g.size, ⟨rest, fault, g ++ (t.nodes g.size).toArray, anchors, handles, depth⟩) := by
  obtain ⟨m, rfl⟩ : ∃ m, n = m + 1 := by
    obtain ⟨u, us, hu, -⟩ := exists_tokens_eq isUnderKey t
    exact ⟨n - 1, by rw [hu, List.length_cons] at hn; omega⟩
  match t with
  | .text w =>
    rw [tokens, List.singleton_append, Word.token, run_node_scalar, w.isText]
    simp [nodes, Word.node]
  | .list .nil =>
    rw [height] at hd
    obtain ⟨k, rfl⟩ : ∃ k, m = k + 1 := ⟨m - 1, by simp [tokens] at hn; omega⟩
    rw [tokens, List.cons_append, List.singleton_append, run_node_emptyList _ _ (by omega)]
    simp [nodes, Items.nodes, Items.ids]
  | .list (.cons item items) =>
    rw [height] at hd
    have hpos : 0 < (Items.cons item items).tokens.length := Nat.succ_pos _
    cases isUnderKey with
    | true =>
      rw [tokens, if_pos rfl] at hn
      obtain ⟨u, us, rfl, hu⟩ := hrest rfl
      have hitems := Items.run_indentlessItems (.cons item items) m us
        (g.push ⟨.null, .text []⟩) (depth + 1) (by omega) (by omega) hu
      rw [Array.size_push] at hitems
      exact run_node_list true (by omega) hitems
    | false =>
      rw [tokens, if_neg nofun, List.length_cons, List.length_append] at hn
      have hitems := Items.run_blockItems (.cons item items) m rest
        (g.push ⟨.null, .text []⟩) (depth + 1) (by omega) (by omega)
      rw [Array.size_push] at hitems
      rw [tokens, if_neg nofun, List.cons_append, List.append_assoc]
      exact run_node_blockList false (by omega) hitems
  | .mapping entries =>
    rw [height] at hd
    rw [tokens, List.length_cons, List.length_append] at hn
    have hentries := Entries.run_blockPairs entries m rest (g.push ⟨.null, .text []⟩)
      (depth + 1) (by omega) (by omega)
    rw [Array.size_push] at hentries
    rw [tokens, List.cons_append, List.append_assoc]
    exact run_node_mapping isUnderKey (by omega) hentries

theorem Items.run_indentlessItems (items : Items) (n : Nat) {u : Token} (rest : List Token)
    (g : Nodes) (depth : Nat) (hn : 4 * items.tokens.length < n + 2 ∧ 0 < n)
    (hd : depth + items.height ≤ depthLimit) (hu : u ≠ .blockEntry) :
    (indentlessItems n).run ⟨items.tokens ++ u :: rest, fault, g, anchors, handles, depth⟩
      = .ok (items.ids g.size, ⟨u :: rest, fault, g ++ (items.nodes g.size).toArray, anchors,
        handles, depth⟩) := by
  obtain ⟨m, rfl⟩ : ∃ m, n = m + 1 := ⟨n - 1, by omega⟩
  match items with
  | .nil =>
    rw [Items.tokens, List.nil_append, run_indentlessItems_nil hu]
    simp [Items.ids, Items.nodes]
  | .cons item items =>
    rw [Items.tokens, List.length_cons, List.length_append] at hn
    rw [Items.height] at hd
    obtain ⟨k, rfl⟩ : ∃ k, m = k + 1 := ⟨m - 1, by omega⟩
    have hitem := run_node false item k (items.tokens ++ u :: rest) g depth (by omega)
      (by omega) nofun
    rw [← run_part_tokens [.blockEntry, .key, .value, .blockEnd] (by simp [opens])] at hitem
    have hitems := Items.run_indentlessItems items (k + 1) rest
      (g ++ (item.nodes g.size).toArray) depth (by omega) (by omega) hu
    rw [size_append_nodes, append_append] at hitems
    rw [Items.tokens, List.cons_append, List.append_assoc]
    exact run_indentlessItems_cons hitem hitems

theorem Items.run_blockItems (items : Items) (n : Nat) (rest : List Token) (g : Nodes)
    (depth : Nat) (hn : 4 * items.tokens.length < n + 2 ∧ 0 < n)
    (hd : depth + items.height ≤ depthLimit) :
    (blockItems n).run
        ⟨items.tokens ++ .blockEnd :: rest, fault, g, anchors, handles, depth⟩
      = .ok (items.ids g.size, ⟨rest, fault, g ++ (items.nodes g.size).toArray, anchors,
        handles, depth⟩) := by
  obtain ⟨m, rfl⟩ : ∃ m, n = m + 1 := ⟨n - 1, by omega⟩
  match items with
  | .nil =>
    rw [Items.tokens, List.nil_append, run_blockItems_nil]
    simp [Items.ids, Items.nodes]
  | .cons item items =>
    rw [Items.tokens, List.length_cons, List.length_append] at hn
    rw [Items.height] at hd
    obtain ⟨k, rfl⟩ : ∃ k, m = k + 1 := ⟨m - 1, by omega⟩
    have hitem := run_node false item k (items.tokens ++ .blockEnd :: rest) g depth (by omega)
      (by omega) nofun
    rw [← run_part_tokens [.blockEntry, .blockEnd] (by simp [opens])] at hitem
    have hitems := Items.run_blockItems items (k + 1) rest (g ++ (item.nodes g.size).toArray)
      depth (by omega) (by omega)
    rw [size_append_nodes, append_append] at hitems
    rw [Items.tokens, List.cons_append, List.append_assoc]
    exact run_blockItems_cons hitem hitems

theorem Entries.run_blockPairs (entries : Entries) (n : Nat) (rest : List Token) (g : Nodes)
    (depth : Nat) (hn : 4 * entries.tokens.length < n + 2 ∧ 0 < n)
    (hd : depth + entries.height ≤ depthLimit) :
    (blockPairs n).run
        ⟨entries.tokens ++ .blockEnd :: rest, fault, g, anchors, handles, depth⟩
      = .ok (entries.ids g.size, ⟨rest, fault, g ++ (entries.nodes g.size).toArray, anchors,
        handles, depth⟩) := by
  obtain ⟨m, rfl⟩ : ∃ m, n = m + 1 := ⟨n - 1, by omega⟩
  match entries with
  | .nil =>
    rw [Entries.tokens, List.nil_append, run_blockPairs_nil]
    simp [Entries.ids, Entries.nodes]
  | .cons key value entries =>
    simp only [Entries.tokens, List.length_cons, List.length_append] at hn
    rw [Entries.height] at hd
    obtain ⟨k, rfl⟩ : ∃ k, m = k + 2 := ⟨m - 2, by omega⟩
    have hkey (ts : List Token) : (part true true [.key, .value, .blockEnd] (k + 2)).run
        ⟨key.token :: ts, fault, g, anchors, handles, depth⟩
          = .ok (g.size, ⟨ts, fault, g.push key.node, anchors, handles, depth⟩) := by
      rw [Word.token, run_part (by simp), run_node_scalar, key.isText, Word.node]
    have hvalue := run_node true value (k + 1) (entries.tokens ++ .blockEnd :: rest)
      (g.push key.node) depth (by omega) (by omega) fun _ => entries.exists_tokens_append_eq rest
    rw [Array.size_push, ← run_part_tokens [.key, .value, .blockEnd] (by simp [opens])] at hvalue
    have hentries := Entries.run_blockPairs entries (k + 2) rest
      (g.push key.node ++ (value.nodes (g.size + 1)).toArray) depth (by omega) (by omega)
    rw [size_append_nodes, append_append, Array.size_push, push_append g _ (_ ++ _)] at hentries
    rw [Entries.tokens, List.cons_append, List.cons_append, List.cons_append, List.append_assoc]
    exact run_blockPairs_cons (hkey _) hvalue hentries

end

end Tree

/-- **The tokens of a tree give its nodes**, unless too many collections are open at a time. -/
theorem Nodes.ofTokens_tokens (t : Tree) (ht : t.height ≤ Node.depthLimit) :
    ofTokens ⟨t.tokens false ++ [.streamEnd], none⟩ = .ok (some 0, (t.nodes 0).toArray) := by
  have h := @Tree.run_node none [] Node.defaultHandles false t
    (4 * (t.tokens false ++ [Token.streamEnd]).length + 4) [.streamEnd] #[] 0
    (by rw [List.length_append]; omega) (by omega) nofun
  obtain ⟨u, us, hu, hopens⟩ := t.exists_tokens_eq false
  rw [hu, List.cons_append] at h ⊢
  rw [ofTokens, Node.run_document hopens h, ok_bind, Array.empty_append]
  rfl

end ThreatTree.Yaml
