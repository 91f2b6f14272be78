import ThreatTree.Proofs.Graph.Check
import ThreatTree.Theme.Builtin

/-!
# The graph of a document is what the document declares

The edges into one node come from its predecessors, each taken at its first place
(`mem_edgesInto`), and the edges of the graph are those into the nodes, node by node. So the
edges are in order by the place of their target and then by the place of their source
(`pairwise_precedes`), and everything that is said about repeated and grouped edges follows from
this order (`IsGrouped.of_pairwise`, `nodup_ends`).

The main statement, `compile_isDeclaredBy`, says that the graph of a document that compiles has
exactly the declared nodes and edges, in the order of their declaration, each drawn in the way
that its declaration asks for.
-/

namespace ThreatTree

namespace GraphEdge

/-- The source and the target of an edge. -/
def ends (e : GraphEdge) : String × String := (e.source, e.target)

/-- The edge has a label that is not empty. -/
def IsLabelled (e : GraphEdge) : Prop := ∃ s, e.label = some s ∧ s ≠ ""

/-- What an edge carries in a theme: an edge that runs backwards has its colour and its dashes and
is left out of the ranking, a labelled edge has the colour of its label, and there is no more. -/
structure IsDrawnIn (e : GraphEdge) (theme : Theme) : Prop where
  mem_attributes_iff : ∀ a, a ∈ e.attributes ↔
    e.isBackwards = true ∧ (a = ("color", theme.backwardsEdgeColor) ∨ a = ("constraint", "false")
      ∨ a = ("style", "dashed"))
    ∨ e.IsLabelled ∧ a = ("fontcolor", theme.edgeLabelColor)
  names_nodup : (e.attributes.map (·.1)).Nodup

end GraphEdge

namespace Graph

/-! ## Order of edges -/

/-- The first edge is listed before the second: its target is declared earlier, or they have one
target, which lists the source of the first edge earlier. -/
def Precedes (nodes : List Node) (e e' : GraphEdge) : Prop :=
  (nodes.map (·.id)).idxOf e.target < (nodes.map (·.id)).idxOf e'.target
  ∨ e.target = e'.target ∧ ∀ n ∈ nodes, n.id = e.target →
      n.predecessors.idxOf e.source < n.predecessors.idxOf e'.source

/-- Between two edges with one target there are only edges with this target. -/
def IsGrouped (edges : List GraphEdge) : Prop :=
  ∀ before e between e' after, edges = before ++ e :: (between ++ e' :: after) →
    e.target = e'.target → ∀ k ∈ between, k.target = e.target

theorem Precedes.idxOf_le {nodes : List Node} {e e' : GraphEdge} (h : Precedes nodes e e') :
    (nodes.map (·.id)).idxOf e.target ≤ (nodes.map (·.id)).idxOf e'.target := by
  rcases h with h | ⟨h, -⟩
  · exact Nat.le_of_lt h
  · exact Nat.le_of_eq (by rw [h])

theorem IsGrouped.of_pairwise {nodes : List Node} {edges : List GraphEdge}
    (h : edges.Pairwise (Precedes nodes)) : IsGrouped edges := by
  rintro before e between e' after rfl htarget k hk
  obtain ⟨-, hrest, -⟩ := List.pairwise_append.1 h
  obtain ⟨hfirst, hrest⟩ := List.pairwise_cons.1 hrest
  have hek : Precedes nodes e k := hfirst k (List.mem_append_left _ hk)
  have hke : Precedes nodes k e' :=
    (List.pairwise_append.1 hrest).2.2 k hk e' List.mem_cons_self
  rcases hek with hlt | ⟨heq, -⟩
  · have hle := hke.idxOf_le
    rw [← htarget] at hle
    exact absurd hlt (Nat.not_lt.2 hle)
  · exact heq.symm

/-! ## Edges of nodes -/

section Nodes

variable {theme : Theme} {nodes : List Node}

theorem mem_edgesInto {n : Node} {e : GraphEdge} :
    e ∈ edgesInto theme nodes n ↔ ∃ p ∈ n.predecessors, e = edgeFrom theme nodes n p := by
  simp only [edgesInto, List.mem_map, mem_distinct, eq_comm]

theorem mem_edges {e : GraphEdge} :
    e ∈ nodes.flatMap (edgesInto theme nodes)
      ↔ ∃ n ∈ nodes, ∃ p ∈ n.predecessors, e = edgeFrom theme nodes n p := by
  simp only [List.mem_flatMap, mem_edgesInto]

/-- There is an edge between two ids exactly if the second one lists the first. -/
theorem exists_edge_iff {source target : String} :
    (∃ e ∈ nodes.flatMap (edgesInto theme nodes), e.source = source ∧ e.target = target)
      ↔ ∃ n ∈ nodes, n.id = target ∧ source ∈ n.predecessors := by
  constructor
  · rintro ⟨e, he, rfl, rfl⟩
    obtain ⟨n, hn, p, hp, rfl⟩ := mem_edges.1 he
    exact ⟨n, hn, rfl, hp⟩
  · rintro ⟨n, hn, rfl, hp⟩
    exact ⟨edgeFrom theme nodes n source, mem_edges.2 ⟨n, hn, source, hp, rfl⟩, rfl, rfl⟩

variable (hnodup : (nodes.map (·.id)).Nodup)
include hnodup

theorem eq_of_id_eq {n m : Node} (hn : n ∈ nodes) (hm : m ∈ nodes) (h : n.id = m.id) : n = m := by
  have hfound := (find?_key_eq_some_iff hnodup).2 ⟨hn, h⟩
  have hfound' := (find?_key_eq_some_iff hnodup).2 ⟨hm, rfl⟩
  exact Option.some.inj (hfound.symm.trans hfound')

theorem categoryOf?_id {m : Node} (hm : m ∈ nodes) : categoryOf? nodes m.id = some m.category := by
  rw [categoryOf?, (find?_key_eq_some_iff hnodup).2 ⟨hm, rfl⟩, Option.map_some]

/-- The edges into one node are in the order of its list. -/
theorem pairwise_precedes_edgesInto {n : Node} (hn : n ∈ nodes) :
    (edgesInto theme nodes n).Pairwise (Precedes nodes) := by
  refine List.pairwise_map.2 ((pairwise_idxOf_distinct n.predecessors).imp fun hlt => ?_)
  refine .inr ⟨rfl, fun m hm hid => ?_⟩
  rw [eq_of_id_eq hnodup hm hn hid]
  exact hlt

theorem pairwise_precedes : (nodes.flatMap (edgesInto theme nodes)).Pairwise (Precedes nodes) := by
  rw [List.pairwise_flatMap]
  refine ⟨fun n hn => pairwise_precedes_edgesInto hnodup hn, ?_⟩
  have horder := pairwise_idxOf_distinct (nodes.map (·.id))
  rw [distinct_of_nodup hnodup, List.pairwise_map] at horder
  refine horder.imp fun {n m} hlt e he e' he' => .inl ?_
  obtain ⟨p, -, rfl⟩ := mem_edgesInto.1 he
  obtain ⟨q, -, rfl⟩ := mem_edgesInto.1 he'
  exact hlt

theorem nodup_ends : ((nodes.flatMap (edgesInto theme nodes)).map GraphEdge.ends).Nodup := by
  refine List.pairwise_map.2 ((pairwise_precedes hnodup).imp_of_mem fun {e e'} he _ hlt heq => ?_)
  obtain ⟨hsource, htarget⟩ := Prod.mk.inj heq
  obtain ⟨n, hn, p, -, rfl⟩ := mem_edges.1 he
  rcases hlt with hlt | ⟨-, hlt⟩
  · rw [htarget] at hlt
    exact Nat.lt_irrefl _ hlt
  · have hlt := hlt n hn rfl
    rw [hsource] at hlt
    exact Nat.lt_irrefl _ hlt

/-- An edge runs backwards if its target says so, or if its source is of a later category. -/
theorem isBackwards_iff {n m : Node} (hm : m ∈ nodes) :
    isBackwards nodes m.id n = true
      ↔ m.id ∈ n.backwards ∨ n.category.rank < m.category.rank := by
  simp [isBackwards, categoryOf?_id hnodup hm]

end Nodes

/-! ## Attributes of edges -/

theorem isSome_shownLabel_iff {label : Option String} :
    (shownLabel label).isSome = true ↔ ∃ s, label = some s ∧ s ≠ "" := by
  cases label with
  | none => simp [shownLabel]
  | some s => simp [shownLabel, Option.filter]

theorem edgeFrom_isDrawnIn (theme : Theme) (nodes : List Node) (n : Node) (p : String) :
    (edgeFrom theme nodes n p).IsDrawnIn theme := by
  have hlabel : (shownLabel (n.edgeLabel p)).isSome = true
      ↔ (edgeFrom theme nodes n p).IsLabelled := isSome_shownLabel_iff
  constructor
  · intro a
    rw [← hlabel]
    simp only [edgeFrom, edgeAttributes, List.mem_append]
    by_cases hb : isBackwards nodes p n = true <;>
      by_cases hl : (shownLabel (n.edgeLabel p)).isSome = true <;>
        simp only [hb, hl, if_true, if_false, List.mem_cons, List.not_mem_nil, or_false, false_or,
          true_and, false_and, Bool.false_eq_true] <;> grind
  · simp only [edgeFrom, edgeAttributes]
    split <;> split <;> simp

/-! ## The whole graph -/

/-- What a graph has to be in a theme for a document. -/
structure IsDeclaredBy (g : Graph) (d : Document) (theme : Theme) : Prop where
  /-- The nodes are those of the document, one for one. -/
  nodes_eq : g.nodes.map (fun n => (n.id, n.label, n.category))
    = (d.facts ++ d.attacks ++ d.mitigations ++ d.goals).map fun n => (n.id, n.label, n.category)
  /-- There are no two edges with the same ends. -/
  nodup_ends : (g.edges.map GraphEdge.ends).Nodup
  /-- The edges are the references of the document. -/
  exists_edge_iff : ∀ source target, (∃ e ∈ g.edges, e.source = source ∧ e.target = target)
    ↔ ∃ n ∈ d.nodes, n.id = target ∧ source ∈ n.predecessors
  grouped : IsGrouped g.edges
  ordered : g.edges.Pairwise (Precedes d.nodes)
  ends_mem : ∀ e ∈ g.edges, e.source ∈ g.nodes.map (·.id) ∧ e.target ∈ g.nodes.map (·.id)
  isBackwards_iff : ∀ e ∈ g.edges, ∀ n ∈ d.nodes, ∀ m ∈ d.nodes,
    n.id = e.target → m.id = e.source →
      (e.isBackwards = true ↔ e.source ∈ n.backwards ∨ n.category.rank < m.category.rank)
  label_eq : ∀ e ∈ g.edges, ∀ n ∈ d.nodes, n.id = e.target → e.label = n.edgeLabel e.source
  isDrawnIn : ∀ e ∈ g.edges, e.IsDrawnIn theme
  node?_eq_some_iff : ∀ id n, g.node? id = some n ↔ n ∈ g.nodes ∧ n.id = id
  node?_eq_none_iff : ∀ id, g.node? id = none ↔ id ∉ d.nodeIds
  edge?_eq_some_iff : ∀ source target e,
    g.edge? source target = some e ↔ e ∈ g.edges ∧ e.source = source ∧ e.target = target
  edge?_eq_none_iff : ∀ source target, g.edge? source target = none
    ↔ ¬ ∃ n ∈ d.nodes, n.id = target ∧ source ∈ n.predecessors

theorem ids_draw (title : String) (theme : Theme) (nodes : List Node) :
    (draw title theme nodes).nodes.map (·.id) = nodes.map (·.id) := by
  simp only [draw, List.map_map]
  rfl

theorem edge?_eq_some_iff {g : Graph} (h : (g.edges.map GraphEdge.ends).Nodup)
    {source target : String} {e : GraphEdge} :
    g.edge? source target = some e ↔ e ∈ g.edges ∧ e.source = source ∧ e.target = target := by
  have hkey : (fun e : GraphEdge => decide (e.source = source ∧ e.target = target))
      = fun e => decide (e.ends = (source, target)) := by
    funext e
    simp [GraphEdge.ends]
  rw [edge?, hkey, find?_key_eq_some_iff h, GraphEdge.ends, Prod.mk.injEq]

end Graph

open ThreatTree.Graph

/-- **The graph of a document has exactly the declared nodes and edges**, whatever the registry
and the name of the theme. -/
theorem Document.compile_isDeclaredBy {registry : Registry} {theme : Option String} {d : Document}
    {g : Graph} (h : d.compile registry theme = .ok g) :
    g.IsDeclaredBy d (registry.resolve (d.chosenTheme theme)) := by
  obtain ⟨⟨hnodup, hrefers⟩, rfl⟩ := compile_eq_ok_iff.1 h
  have hends := @Graph.nodup_ends (registry.resolve (d.chosenTheme theme)) _ hnodup
  have hids := ids_draw d.title (registry.resolve (d.chosenTheme theme)) d.nodes
  have hordered := @pairwise_precedes (registry.resolve (d.chosenTheme theme)) _ hnodup
  constructor
  case nodes_eq =>
    rw [← d.nodes_eq, draw, List.map_map]
    rfl
  case nodup_ends => exact hends
  case exists_edge_iff => exact fun _ _ => Graph.exists_edge_iff
  case grouped => exact .of_pairwise hordered
  case ordered => exact hordered
  case ends_mem =>
    intro e he
    obtain ⟨n, hn, p, hp, rfl⟩ := mem_edges.1 he
    rw [hids]
    exact ⟨hrefers n hn p hp, List.mem_map_of_mem hn⟩
  case isBackwards_iff =>
    intro e he n hn m hm htarget hsource
    obtain ⟨k, hk, p, hp, rfl⟩ := mem_edges.1 he
    obtain rfl := eq_of_id_eq hnodup hn hk htarget
    obtain rfl : m.id = p := hsource
    exact Graph.isBackwards_iff hnodup hm
  case label_eq =>
    intro e he n hn htarget
    obtain ⟨k, hk, p, hp, rfl⟩ := mem_edges.1 he
    obtain rfl := eq_of_id_eq hnodup hn hk htarget
    rfl
  case isDrawnIn =>
    intro e he
    obtain ⟨n, hn, p, hp, rfl⟩ := mem_edges.1 he
    exact edgeFrom_isDrawnIn _ _ _ _
  case node?_eq_some_iff => exact fun id n => find?_key_eq_some_iff (hids ▸ hnodup)
  case node?_eq_none_iff =>
    intro id
    rw [Document.nodeIds, ← hids, node?, List.find?_eq_none]
    simp
  case edge?_eq_some_iff => exact fun _ _ _ => Graph.edge?_eq_some_iff hends
  case edge?_eq_none_iff =>
    intro source target
    rw [← @Graph.exists_edge_iff (registry.resolve (d.chosenTheme theme)), edge?,
      List.find?_eq_none]
    simp [draw]

/-- A document with a reference to its own node, one that is repeated, one to a later category, and
labels that are empty and not. -/
def Document.tangled : Document where
  title := "Tangle"
  theme := none
  facts := [⟨"a", "A", .fact, ["a", "b", "a"], [("b", "via")], [], by decide⟩]
  attacks := [⟨"b", "B", .attack, ["c", "a"], [("a", "")], ["a"], by decide⟩]
  mitigations := []
  goals := [⟨"c", "C", .goal, ["b"], [], [], by decide⟩]

theorem Document.tangled_compile_isDeclaredBy : ∃ g, tangled.compile .builtin none = .ok g
    ∧ g.IsDeclaredBy tangled .standard
    ∧ g.edges.map GraphEdge.ends = [("a", "a"), ("b", "a"), ("c", "b"), ("a", "b"), ("b", "c")]
    ∧ g.edges.map (·.isBackwards) = [false, true, true, true, false] := by
  have hcompile : tangled.compile .builtin none
      = .ok (draw "Tangle" (Registry.builtin.resolve none) tangled.nodes) :=
    compile_eq_ok_iff.2 ⟨⟨by decide, by unfold Refers; decide⟩, rfl⟩
  exact ⟨_, hcompile, compile_isDeclaredBy hcompile, by decide, by decide⟩

end ThreatTree
