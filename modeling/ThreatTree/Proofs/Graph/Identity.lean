import ThreatTree.Proofs.Dot.Digraph
import ThreatTree.Proofs.Dot.Name
import ThreatTree.Proofs.Graph.Declared

/-!
# Nodes keep their identity in the source text

The id of a node is written in the statement of the node, and again at the ends of its edges, each
time in the same way. `compile_identifiers` says how, for every document that compiles: an id is
written as an identifier exactly if it is whole, and two ids are written alike exactly if they are
in quotes and differ only in the backslashes in front of their quotes. Where ids are whole and not
alike, the nodes are told apart by what is read.
-/

namespace ThreatTree

open Dot (IsIdentifier IsWhole AreAlike ReadsAs Digraph)

open ThreatTree.Graph

namespace Graph

/-- The line of a node starts with its id. -/
def nodeLine (n : GraphNode) : List Char :=
  Digraph.statement (Dot.quote n.id.toList ++ (nodeStatement n).attributes.renderList)

/-- The line of an edge starts with the ids of its ends. -/
def edgeLine (e : GraphEdge) : List Char :=
  Digraph.statement (Dot.quote e.source.toList ++ " -> ".toList ++ Dot.quote e.target.toList
    ++ (edgeStatement e).attributes.renderList)

/-- The last lines of the source text are those of the nodes and the edges. -/
theorem render_eq_lines (title : String) (theme : Theme) (nodes : List GraphNode)
    (edges : List GraphEdge) :
    (digraph title theme nodes edges).render
      = ((digraph title theme nodes edges).opening
          ++ (digraph title theme nodes edges).attributeLines)
        ++ nodes.flatMap nodeLine ++ edges.flatMap edgeLine ++ "\x7d\n".toList := by
  have hclose : "\x7d\n".toList = ['\x7d', '\n'] := by decide
  have hnodes : Digraph.nodeLines (digraph title theme nodes edges).nodes
      = nodes.flatMap nodeLine := by
    rw [Digraph.nodeLines, digraph, List.flatMap_map]
    rfl
  have hedges : Digraph.edgeLines (digraph title theme nodes edges).edges
      = edges.flatMap edgeLine := by
    rw [Digraph.edgeLines, digraph, List.flatMap_map]
    rfl
  rw [Digraph.render_eq, hnodes, hedges, hclose]
  simp only [List.append_assoc]

theorem exists_render_eq (title : String) (theme : Theme) (nodes : List GraphNode)
    (edges : List GraphEdge) :
    ∃ front, (digraph title theme nodes edges).render
      = front ++ nodes.flatMap nodeLine ++ edges.flatMap edgeLine ++ "\x7d\n".toList :=
  ⟨_, render_eq_lines title theme nodes edges⟩

end Graph

/-- **How the ids of a compiled document are written**, whatever the registry and the name of the
theme. The id of a node stands in front of its line, and the ends of an edge are ids of nodes,
written as these are. An id is written as an identifier of DOT exactly if it is whole, and then it
is read as one. Two ids are written alike exactly if they are in quotes and differ only in
backslashes in front of quotes; all others that are whole are read as different names. -/
theorem Document.compile_identifiers {registry : Registry} {theme : Option String} {d : Document}
    {g : Graph} (h : d.compile registry theme = .ok g) :
    (∃ front, g.dot.toList
      = front ++ g.nodes.flatMap nodeLine ++ g.edges.flatMap edgeLine ++ "\x7d\n".toList)
    ∧ (∀ e ∈ g.edges, e.source ∈ g.nodes.map (·.id) ∧ e.target ∈ g.nodes.map (·.id))
    ∧ (∀ n ∈ g.nodes, IsIdentifier (Dot.quote n.id.toList) ↔ IsWhole n.id.toList)
    ∧ (∀ n ∈ g.nodes, IsWhole n.id.toList →
        ReadsAs (Dot.quote n.id.toList) (Dot.identifier n.id.toList))
    ∧ g.nodes.Pairwise fun n m =>
        (Dot.quote n.id.toList = Dot.quote m.id.toList ↔ AreAlike n.id.toList m.id.toList)
        ∧ (IsWhole n.id.toList → IsWhole m.id.toList →
          ((Dot.identifier n.id.toList).text = (Dot.identifier m.id.toList).text
            ↔ AreAlike n.id.toList m.id.toList)) := by
  obtain ⟨⟨hnodup, hrefers⟩, rfl⟩ := compile_eq_ok_iff.1 h
  have hids : ((draw d.title (registry.resolve (d.chosenTheme theme)) d.nodes).nodes.map
      (·.id)).Nodup := by
    rw [ids_draw]
    exact hnodup
  refine ⟨?lines, fun e he => ?ends, fun n _ => Dot.isIdentifier_quote_iff,
    fun n _ => Dot.readsAs_quote, (List.pairwise_map.1 hids).imp fun {n m} hne => ?_⟩
  case lines =>
    rw [draw, String.toList_ofList]
    exact exists_render_eq d.title _ _ _
  case ends =>
    obtain ⟨n, hn, p, hp, rfl⟩ := mem_edges.1 he
    rw [ids_draw]
    exact ⟨hrefers n hn p hp, List.mem_map_of_mem hn⟩
  · have hne : n.id.toList ≠ m.id.toList := fun heq => hne (String.toList_inj.1 heq)
    exact ⟨Dot.quote_eq_quote_iff.trans (or_iff_right hne),
      fun hn hm => (Dot.text_identifier_eq_iff hn hm).trans (or_iff_right hne)⟩

/-- A document with markup, a keyword, a number, a backslash and escaped quotes in its ids. -/
def Document.escaped : Document where
  title := "Escaped"
  theme := none
  facts := [⟨"<b>", "A", .fact, ["edge"], [], [], by decide⟩,
    ⟨"edge", "B", .fact, [], [], [], by decide⟩]
  attacks := [⟨"-1.5", "C", .attack, [], [], [], by decide⟩]
  mitigations := [⟨"C:\\dir \"x\"", "D", .mitigation, [], [], [], by decide⟩]
  goals := [⟨"say \\\"hi\\\"", "E", .goal, ["C:\\dir \"x\""], [], [], by decide⟩]

theorem Document.escaped_compile_identifiers : ∃ g, escaped.compile .builtin none = .ok g
    ∧ (∀ n ∈ g.nodes, IsIdentifier (Dot.quote n.id.toList))
    ∧ (g.nodes.map fun n => Dot.quote n.id.toList).Nodup
    ∧ g.nodes.map (fun n => String.ofList (Dot.quote n.id.toList))
      = ["<b>", "\"edge\"", "-1.5", "\"C:\\dir \\\"x\\\"\"", "\"say \\\"hi\\\"\""] := by
  have hcompile : escaped.compile .builtin none
      = .ok (draw "Escaped" (Registry.builtin.resolve none) escaped.nodes) :=
    compile_eq_ok_iff.2 ⟨⟨by decide, by unfold Refers; decide⟩, rfl⟩
  obtain ⟨-, -, hidentifier, -, halike⟩ := compile_identifiers hcompile
  refine ⟨_, hcompile, fun n hn => (hidentifier n hn).2 ?_, ?_, by decide⟩
  · revert n
    decide
  · have hdiffer : (draw "Escaped" (Registry.builtin.resolve none) escaped.nodes).nodes.Pairwise
        fun n m => ¬ AreAlike n.id.toList m.id.toList := by decide
    exact List.pairwise_map.2 ((halike.and hdiffer).imp fun h heq => h.2 (h.1.1.1 heq))

/-- A document with two ids that differ in a backslash in front of a quote, and one that ends with a
backslash. -/
def Document.clashing : Document where
  title := "Attack Tree"
  theme := none
  facts := [⟨"a\"", "A", .fact, [], [], [], by decide⟩,
    ⟨"a\\\"", "B", .fact, [], [], [], by decide⟩, ⟨"b\\", "C", .fact, [], [], [], by decide⟩]
  attacks := []
  mitigations := []
  goals := []

/-- Two nodes are written alike, and one breaks off the source text. -/
theorem Document.clashing_identifiers : ∃ g, clashing.compile .builtin none = .ok g
    ∧ (∃ n ∈ g.nodes, ∃ m ∈ g.nodes, n.id ≠ m.id
      ∧ Dot.quote n.id.toList = Dot.quote m.id.toList)
    ∧ ∃ n ∈ g.nodes, ¬ IsIdentifier (Dot.quote n.id.toList) := by
  have hcompile : clashing.compile .builtin none
      = .ok (draw "Attack Tree" (Registry.builtin.resolve none) clashing.nodes) :=
    compile_eq_ok_iff.2 ⟨⟨by decide, by unfold Refers; decide⟩, rfl⟩
  refine ⟨_, hcompile, by decide, ?_⟩
  have hopen : ∃ n ∈ (draw "Attack Tree" (Registry.builtin.resolve none) clashing.nodes).nodes,
      ¬ IsWhole n.id.toList := by decide
  simpa only [Dot.isIdentifier_quote_iff] using hopen

end ThreatTree
