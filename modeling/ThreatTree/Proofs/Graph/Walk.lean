import ThreatTree.Proofs.Graph.Declared

/-!
# Forward edges lead through the categories in order

An edge that does not run backwards leads to a node of the same category or of a later one
(`rank_le_of_forward`). So the categories of the nodes on a walk along such edges never decrease
(`Walk.pairwise_rank_le`). To come back to an earlier category, and so to go round between two
categories, a walk has to take an edge that runs backwards, and these are left out of the ranking.

The main statement, `compile_isLayered`, says this of the graph of every document that compiles.
-/

namespace ThreatTree

namespace Graph

/-- A walk through a graph: the nodes that it visits, and the edges that it takes from each of them
to the next. -/
inductive Walk (g : Graph) : List GraphNode → List GraphEdge → Prop
  | start {n : GraphNode} : n ∈ g.nodes → Walk g [n] []
  | step {n m : GraphNode} {e : GraphEdge} {ns : List GraphNode} {es : List GraphEdge} :
      n ∈ g.nodes → e ∈ g.edges → e.source = n.id → e.target = m.id →
      Walk g (m :: ns) es → Walk g (n :: m :: ns) (e :: es)

/-- The edges go through the categories in order, as long as they do not run backwards. -/
structure IsLayered (g : Graph) : Prop where
  /-- Along edges that do not run backwards, categories never decrease. -/
  pairwise_rank_le : ∀ ns es, g.Walk ns es → (∀ e ∈ es, e.isBackwards = false) →
    ns.Pairwise fun n m => n.category.rank ≤ m.category.rank
  /-- A closed walk takes an edge that runs backwards, or it stays inside one category. -/
  closed : ∀ n ns es, g.Walk (n :: ns) es → (n :: ns).getLast? = some n →
    (∃ e ∈ es, e.isBackwards = true) ∨ ∀ m ∈ n :: ns, m.category = n.category
  /-- A walk to an earlier category takes an edge that runs backwards, one that is left out of the
  ranking. -/
  returning : ∀ n ns es m, g.Walk (n :: ns) es → (n :: ns).getLast? = some m →
    m.category.rank < n.category.rank →
      ∃ e ∈ es, e.isBackwards = true ∧ ("constraint", "false") ∈ e.attributes

/-! ## Walks along forward edges -/

section Walks

variable {g : Graph}

theorem Walk.mem_nodes {ns : List GraphNode} {es : List GraphEdge} (h : g.Walk ns es) :
    ∀ n ∈ ns, n ∈ g.nodes := by
  induction h with
  | start hn => exact List.forall_mem_singleton.2 hn
  | step hn _ _ _ _ ih => exact List.forall_mem_cons.2 ⟨hn, ih⟩

theorem Walk.mem_edges {ns : List GraphNode} {es : List GraphEdge} (h : g.Walk ns es) :
    ∀ e ∈ es, e ∈ g.edges := by
  induction h with
  | start => exact List.forall_mem_nil _
  | step _ he _ _ _ ih => exact List.forall_mem_cons.2 ⟨he, ih⟩

/-- A forward edge does not lead to an earlier category. -/
def LeadsOn (g : Graph) : Prop :=
  ∀ n ∈ g.nodes, ∀ m ∈ g.nodes, ∀ e ∈ g.edges, e.source = n.id → e.target = m.id →
    e.isBackwards = false → n.category.rank ≤ m.category.rank

variable (hleads : g.LeadsOn)
include hleads

theorem Walk.pairwise_rank_le {ns : List GraphNode} {es : List GraphEdge} (h : g.Walk ns es)
    (hforward : ∀ e ∈ es, e.isBackwards = false) :
    ns.Pairwise fun n m => n.category.rank ≤ m.category.rank := by
  induction h with
  | start => exact List.pairwise_singleton _ _
  | @step n m e ns es hn he hsource htarget hwalk ih =>
    obtain ⟨hfirst, hforward⟩ := List.forall_mem_cons.1 hforward
    have hrest := ih hforward
    have hstep : n.category.rank ≤ m.category.rank :=
      hleads n hn m (hwalk.mem_nodes m List.mem_cons_self) e he hsource htarget hfirst
    refine List.pairwise_cons.2 ⟨fun k hk => ?_, hrest⟩
    rcases List.mem_cons.1 hk with rfl | hk
    · exact hstep
    · exact Nat.le_trans hstep ((List.pairwise_cons.1 hrest).1 k hk)

/-- Nodes on a walk along forward edges are of categories between those of its ends. -/
theorem Walk.rank_between {n m : GraphNode} {ns : List GraphNode} {es : List GraphEdge}
    (h : g.Walk (n :: ns) es) (hlast : (n :: ns).getLast? = some m)
    (hforward : ∀ e ∈ es, e.isBackwards = false) {k : GraphNode} (hk : k ∈ n :: ns) :
    n.category.rank ≤ k.category.rank ∧ k.category.rank ≤ m.category.rank := by
  have hpairs := h.pairwise_rank_le hleads hforward
  constructor
  · rcases List.mem_cons.1 hk with rfl | hk
    · exact Nat.le_refl _
    · exact (List.pairwise_cons.1 hpairs).1 k hk
  · obtain ⟨front, hfront⟩ := List.getLast?_eq_some_iff.1 hlast
    rw [hfront] at hpairs hk
    rcases List.mem_append.1 hk with hk | hk
    · exact (List.pairwise_append.1 hpairs).2.2 k hk m List.mem_cons_self
    · exact Nat.le_of_eq (by rw [List.mem_singleton.1 hk])

end Walks

/-! ## The edges of a document -/

theorem exists_backwards_or (es : List GraphEdge) :
    (∃ e ∈ es, e.isBackwards = true) ∨ ∀ e ∈ es, e.isBackwards = false := by
  by_cases h : ∃ e ∈ es, e.isBackwards = true
  · exact .inl h
  · exact .inr fun e he => Bool.eq_false_iff.2 fun hb => h ⟨e, he, hb⟩

/-- An edge that runs backwards is left out of the ranking. -/
theorem constraint_mem_edgeFrom {theme : Theme} {nodes : List Node} {n : Node} {p : String}
    (h : (edgeFrom theme nodes n p).isBackwards = true) :
    ("constraint", "false") ∈ (edgeFrom theme nodes n p).attributes :=
  ((edgeFrom_isDrawnIn theme nodes n p).mem_attributes_iff _).2 (.inl ⟨h, .inr (.inl rfl)⟩)

theorem leadsOn_draw {title : String} {theme : Theme} {nodes : List Node}
    (hnodup : (nodes.map (·.id)).Nodup) : (draw title theme nodes).LeadsOn := by
  intro n hn m hm e he hsource htarget hforward
  obtain ⟨n, hnode, rfl⟩ := List.mem_map.1 hn
  obtain ⟨m, hnode', rfl⟩ := List.mem_map.1 hm
  obtain ⟨k, hk, p, -, rfl⟩ := mem_edges.1 he
  obtain rfl : k = m := eq_of_id_eq hnodup hk hnode' htarget
  obtain rfl : p = n.id := hsource
  have hnot : ¬ isBackwards nodes n.id k = true := Bool.eq_false_iff.1 hforward
  rw [isBackwards_iff hnodup hnode, not_or] at hnot
  exact Nat.le_of_not_lt hnot.2

end Graph

open ThreatTree.Graph

theorem Category.eq_of_rank_eq {c c' : Category} (h : c.rank = c'.rank) : c = c' := by
  cases c <;> cases c' <;> first | rfl | exact absurd h (by decide)

/-- **The graph of a document goes through the categories in order**: whatever goes back runs along
an edge that is drawn backwards. -/
theorem Document.compile_isLayered {registry : Registry} {theme : Option String} {d : Document}
    {g : Graph} (h : d.compile registry theme = .ok g) : g.IsLayered := by
  obtain ⟨⟨hnodup, -⟩, rfl⟩ := compile_eq_ok_iff.1 h
  have hleads := @leadsOn_draw d.title (registry.resolve (d.chosenTheme theme)) _ hnodup
  constructor
  case pairwise_rank_le => exact fun ns es hwalk => hwalk.pairwise_rank_le hleads
  case closed =>
    intro n ns es hwalk hlast
    refine (exists_backwards_or es).imp_right fun hforward m hm => ?_
    obtain ⟨hle, hge⟩ := hwalk.rank_between hleads hlast hforward hm
    exact Category.eq_of_rank_eq (Nat.le_antisymm hge hle)
  case returning =>
    intro n ns es m hwalk hlast hlt
    rcases exists_backwards_or es with ⟨e, he, hback⟩ | hforward
    · obtain ⟨k, -, p, -, rfl⟩ := mem_edges.1 (hwalk.mem_edges e he)
      exact ⟨_, he, hback, constraint_mem_edgeFrom hback⟩
    · have hle := (hwalk.rank_between hleads hlast hforward List.mem_cons_self).2
      exact absurd hlt (Nat.not_lt.2 hle)

/-- A document whose references go through all categories, and back from the goal to the attack. -/
def Document.circular : Document where
  title := "Circle"
  theme := none
  facts := [⟨"log", "A", .fact, [], [], [], by decide⟩]
  attacks := [⟨"probe", "B", .attack, ["log", "root"], [], [], by decide⟩]
  mitigations := [⟨"patch", "C", .mitigation, ["probe"], [], [], by decide⟩]
  goals := [⟨"root", "D", .goal, ["patch", "root"], [], [], by decide⟩]

theorem Document.circular_compile_isLayered : ∃ g, circular.compile .builtin none = .ok g
    ∧ g.IsLayered
    ∧ ∃ ns es, g.Walk ns es ∧ ns.map (·.id) = ["log", "probe", "patch", "root", "root", "probe"]
      ∧ es.map (·.isBackwards) = [false, false, false, false, true] := by
  have hcompile : circular.compile .builtin none
      = .ok (draw "Circle" (Registry.builtin.resolve none) circular.nodes) :=
    compile_eq_ok_iff.2 ⟨⟨by decide, by unfold Refers; decide⟩, rfl⟩
  let node (i : Fin 4) : Node := circular.nodes.get i
  have hnode (i : Fin 4) : ofNode (Registry.builtin.resolve none) (node i)
      ∈ (draw "Circle" (Registry.builtin.resolve none) circular.nodes).nodes :=
    List.mem_map_of_mem (List.get_mem _ _)
  have hedge (i j : Fin 4) (h : (node i).id ∈ (node j).predecessors) :
      edgeFrom (Registry.builtin.resolve none) circular.nodes (node j) (node i).id
        ∈ (draw "Circle" (Registry.builtin.resolve none) circular.nodes).edges :=
    mem_edges.2 ⟨node j, List.get_mem _ _, _, h, rfl⟩
  have hwalk := Walk.step (hnode 0) (hedge 0 1 (by decide)) rfl rfl <|
    .step (hnode 1) (hedge 1 2 (by decide)) rfl rfl <|
    .step (hnode 2) (hedge 2 3 (by decide)) rfl rfl <|
    .step (hnode 3) (hedge 3 3 (by decide)) rfl rfl <|
    .step (hnode 3) (hedge 3 1 (by decide)) rfl rfl <| .start (hnode 1)
  exact ⟨_, hcompile, compile_isLayered hcompile, _, _, hwalk, by decide, by decide⟩

end ThreatTree
