import ThreatTree.Proofs.Document.Refusal
import ThreatTree.Proofs.Graph.Declared

/-!
# References become edges

The references of an entry go through two hands. The reader keeps every reference, and for each
predecessor the first label that is given to it (`Shape.Declares`); the graph has one edge for each
predecessor, whichever of its references comes first (`mem_edges_ends_iff`). Together they follow
one rule, for lists with any mix of bare, labelled and repeated references.

The main statement, `ofValue_declares`, says this for every value that is read as a document: its
entries declare its nodes, and if it compiles, the references of an entry are the edges into its
node.
-/

namespace ThreatTree

open Value (Entries)

open Shape

namespace Graph

/-- The graph has the references of an entry as the edges into its node. -/
structure HasReferences (g : Graph) (v : Value) (n : Node) : Prop where
  /-- A predecessor has one edge, with the first label that is given to it. -/
  edge : ∀ id ∈ n.predecessors, ∃ e,
    (∀ e', e' ∈ g.edges ∧ e'.source = id ∧ e'.target = n.id ↔ e' = e)
    ∧ ∀ label, e.label = some label ↔ FirstLabels (itemsOf (predecessorsOf v)) id label
  backwards : ∀ id ∈ n.backwards,
    ∃ e ∈ g.edges, e.source = id ∧ e.target = n.id ∧ e.isBackwards = true

variable {theme : Theme} {nodes : List Node}

/-- There is one edge from a predecessor to a node. -/
theorem mem_edges_ends_iff (hnodup : (nodes.map (·.id)).Nodup) {n : Node} (hn : n ∈ nodes)
    {id : String} (hid : id ∈ n.predecessors) {e : GraphEdge} :
    e ∈ nodes.flatMap (edgesInto theme nodes) ∧ e.source = id ∧ e.target = n.id
      ↔ e = edgeFrom theme nodes n id := by
  constructor
  · rintro ⟨he, rfl, htarget⟩
    obtain ⟨m, hm, p, -, rfl⟩ := mem_edges.1 he
    rw [eq_of_id_eq hnodup hn hm htarget.symm]
    rfl
  · rintro rfl
    exact ⟨mem_edges.2 ⟨n, hn, id, hid, rfl⟩, rfl, rfl⟩

theorem isBackwards_of_mem {n : Node} {id : String} (h : id ∈ n.backwards) :
    isBackwards nodes id n = true := by
  simp [isBackwards, h]

theorem hasReferences_draw (hnodup : (nodes.map (·.id)).Nodup) {title : String} {v : Value}
    {category : Category} {n : Node} (hn : n ∈ nodes) (hdeclares : Declares v category n) :
    (draw title theme nodes).HasReferences v n := by
  constructor
  case edge =>
    intro id hid
    exact ⟨edgeFrom theme nodes n id, fun _ => mem_edges_ends_iff hnodup hn hid,
      hdeclares.edgeLabel_iff id⟩
  case backwards =>
    intro id hid
    have hlisted := hdeclares.backwards_mem id hid
    exact ⟨edgeFrom theme nodes n id, mem_edges.2 ⟨n, hn, id, hlisted, rfl⟩, rfl, rfl,
      isBackwards_of_mem hid⟩

end Graph

open ThreatTree.Graph

theorem Document.areListed_of_ofValue {v : Value} {d : Document} (h : ofValue v = .ok d)
    (category : Category) : AreListed (entriesOf v) category (d.listed category) := by
  have hchecks := checks_document v
  rw [h] at hchecks
  cases hchecks with
  | ok _ hlisted => exact hlisted category

theorem Document.mem_nodes_of_mem_listed {d : Document} {category : Category} {n : Node}
    (h : n ∈ d.listed category) : n ∈ d.nodes :=
  List.mem_flatMap.2 ⟨category, category.mem_all, h⟩

/-- **The entries of a value declare the nodes of its document**, section by section and one for
one. If the document compiles, in whatever theme, the references of an entry are the edges into its
node. -/
theorem Document.ofValue_declares {v : Value} {d : Document} (h : ofValue v = .ok d) :
    ∀ category, List.Forall₂ (fun entry n => Declares entry category n
        ∧ ∀ registry theme g, d.compile registry theme = .ok g → g.HasReferences entry n)
      (itemsOf (Entries.get? category.sectionName (entriesOf v))) (d.listed category) := by
  intro category
  have hlisted := areListed_of_ofValue h category
  refine List.forall₂_iff_zip.2 ⟨hlisted.length_eq, fun hzip => ?_⟩
  have hdeclares := List.forall₂_zip hlisted hzip
  refine ⟨hdeclares, fun registry theme g hg => ?_⟩
  obtain ⟨⟨hnodup, -⟩, rfl⟩ := compile_eq_ok_iff.1 hg
  have hn := mem_nodes_of_mem_listed (List.of_mem_zip hzip).2
  exact hasReferences_draw hnodup hn hdeclares

/-- An entry with references that are bare, labelled, and labelled with nothing, several of them to
one node. -/
def Value.repetitive : Value := .mapping
  [(.str "facts", .list [.mapping [(.str "a", .str "A")]]),
    (.str "goals", .list [.mapping [(.str "g", .mapping
      [(.str "label", .str "G"), (.str "from", .list
        [.str "a", .mapping [(.str "a", .str "")], .str "g", .mapping [(.str "a", .null)],
          .mapping [(.str "a", .str "first")], .str "g", .mapping [(.str "a", .str "second")]])]),
      (.str "backwards", .bool true)]])]

theorem Document.repetitive_ofValue_declares : ∃ d entry n g, ofValue .repetitive = .ok d
    ∧ d.compile .builtin none = .ok g ∧ d.goals = [n]
    ∧ itemsOf (Entries.get? "goals" (entriesOf .repetitive)) = [entry]
    ∧ Declares entry .goal n ∧ g.HasReferences entry n
    ∧ n.predecessors = ["a", "a", "g", "a", "a", "g", "a"] ∧ n.edgeLabels = [("a", "first")]
    ∧ n.backwards = ["a", "g"] := by
  let goal : Node := ⟨"g", "G", .goal, ["a", "a", "g", "a", "a", "g", "a"], [("a", "first")],
    ["a", "g"], by decide⟩
  let fact : Node := ⟨"a", "A", .fact, [], [], [], by decide⟩
  let d : Document := ⟨defaultTitle, none, [fact], [], [], [goal]⟩
  have hread : ofValue .repetitive = .ok d := by decide
  have hcompile : d.compile .builtin none
      = .ok (draw defaultTitle (Registry.builtin.resolve none) d.nodes) :=
    compile_eq_ok_iff.2 ⟨⟨by decide, by unfold Refers; decide⟩, rfl⟩
  obtain ⟨⟨hdeclares, hreferences⟩, -⟩ := List.forall₂_cons.1 (ofValue_declares hread .goal)
  exact ⟨d, _, goal, _, hread, hcompile, rfl, rfl, hdeclares, hreferences _ _ _ hcompile, rfl, rfl,
    rfl⟩

end ThreatTree
