import ThreatTree.Proofs.Dot.Label
import ThreatTree.Proofs.Graph.Drawing
import ThreatTree.Proofs.Graph.Identity

/-!
# Titles and labels in the source text

The title stands among the attributes of the graph, and the label of a node or an edge in front of
its other attributes. `compile_labels` says so for every document that compiles, and says that what
is written there shows the label and nothing else, unless the label loses a line feed at its end.
-/

namespace ThreatTree

open Dot (SetsLabel Shows ReadsAs LosesEnd quoteLabel)

open ThreatTree.Graph

namespace Graph

/-- What the line of a node has in front of its label. -/
def nodeFront (n : GraphNode) : List Char := '\t' :: (Dot.quote n.id.toList ++ [' ', '['])

/-- What the line of an edge has in front of its label. -/
def edgeFront (e : GraphEdge) : List Char :=
  '\t' :: (Dot.quote e.source.toList ++ " -> ".toList ++ Dot.quote e.target.toList ++ [' ', '['])

theorem setsLabel_nodeLine (n : GraphNode) : SetsLabel (nodeLine n) (nodeFront n) n.label :=
  Dot.setsLabel_statement _ n.label (Dot.Attributes.ofPlain n.style.attributes)

theorem setsLabel_edgeLine {e : GraphEdge} {s : String} (h : shownLabel e.label = some s) :
    SetsLabel (edgeLine e) (edgeFront e) s := by
  have hattributes : (edgeStatement e).attributes
      = ("label", .label s) :: Dot.Attributes.ofPlain e.attributes := by
    rw [edgeStatement, h]
    rfl
  rw [edgeLine, hattributes]
  exact Dot.setsLabel_statement _ s (Dot.Attributes.ofPlain e.attributes)

/-- The title is set in front of the lines of the nodes. -/
theorem exists_setsLabel_title (title : String) (theme : Theme) (nodes : List GraphNode)
    (edges : List GraphEdge) : ∃ front, SetsLabel ((digraph title theme nodes edges).opening
      ++ (digraph title theme nodes edges).attributeLines) front title := by
  have hattributes : (digraph title theme nodes edges).graphAttributes
      = (digraph title theme nodes edges).graphAttributes.take 4
        ++ ("label", .label title) :: (digraph title theme nodes edges).graphAttributes.drop 5 :=
    rfl
  exact Dot.Digraph.exists_setsLabel hattributes

end Graph

/-- **How the title and the labels of a compiled document are written**, whatever the registry and
the name of the theme. The title is set in front of the lines of the nodes, and the label of a node
or an edge in its line; an empty label of an edge is left out. What is written for a label is one
identifier and no markup, and shows the label and nothing else, exactly if the label keeps its end;
where it stands, it is read as an identifier that shows the label exactly then. Different labels are
written differently. -/
theorem Document.compile_labels {registry : Registry} {theme : Option String} {d : Document}
    {g : Graph} (h : d.compile registry theme = .ok g) :
    (∃ attributes front, SetsLabel attributes front g.title ∧ g.dot.toList
      = attributes ++ g.nodes.flatMap nodeLine ++ g.edges.flatMap edgeLine ++ "\x7d\n".toList)
    ∧ (∀ n ∈ g.nodes, SetsLabel (nodeLine n) (nodeFront n) n.label)
    ∧ (∀ e ∈ g.edges, ∀ s ∈ shownLabel e.label, SetsLabel (edgeLine e) (edgeFront e) s)
    ∧ (∀ s t : List Char, Shows (quoteLabel s) t ↔ ¬ LosesEnd s ∧ t = s)
    ∧ (∀ s : List Char, ∃ i, ReadsAs (quoteLabel s) i ∧ (i.labelText = s ↔ ¬ LosesEnd s))
    ∧ ∀ s t : List Char, quoteLabel s = quoteLabel t ↔ s = t := by
  obtain ⟨-, rfl⟩ := compile_eq_ok_iff.1 h
  refine ⟨?title, fun n _ => setsLabel_nodeLine n, fun e _ s hs => setsLabel_edgeLine hs,
    fun s t => Dot.shows_quoteLabel_iff, fun s => ⟨_, ?reads, Dot.labelText_written_escape_iff⟩,
    fun s t => Dot.quoteLabel_inj⟩
  case reads => exact Dot.readsAs_quotePlain (Dot.isClosed_escape s)
  case title =>
    obtain ⟨front, htitle⟩ := exists_setsLabel_title d.title
      (registry.resolve (d.chosenTheme theme)) _ _
    refine ⟨_, front, htitle, ?_⟩
    rw [draw, String.toList_ofList]
    exact render_eq_lines d.title _ _ _

/-- Markup, a backslash at the end and a line feed behind two words are shown as they are. -/
theorem Document.prickly_compile_labels : ∃ g, prickly.compile .builtin none = .ok g
    ∧ (∃ attributes front, SetsLabel attributes front prickly.title ∧ attributes <+: g.dot.toList)
    ∧ (∀ n ∈ g.nodes, SetsLabel (nodeLine n) (nodeFront n) n.label
      ∧ Shows (quoteLabel n.label.toList) n.label.toList)
    ∧ g.nodes.map (fun n => String.ofList (quoteLabel n.label.toList))
      = ["\"<b>A</b>\"", "\"C:\\\\\"", "\"two words\n\""] := by
  have hcompile : prickly.compile .builtin none
      = .ok (draw prickly.title (Registry.builtin.resolve (some "dark")) prickly.nodes) :=
    compile_eq_ok_iff.2 ⟨⟨by decide, by unfold Refers; decide⟩, rfl⟩
  obtain ⟨⟨attributes, front, htitle, hdot⟩, hnodes, -, hshows, -, -⟩ := compile_labels hcompile
  refine ⟨_, hcompile, ⟨attributes, front, htitle, ?_⟩, fun n hn => ⟨hnodes n hn, ?_⟩, by decide⟩
  · rw [hdot, List.append_assoc, List.append_assoc]
    exact List.prefix_append _ _
  · refine (hshows _ _).2 ⟨?_, rfl⟩
    revert n
    decide

/-- A document whose title and labels end with a line feed, behind a name, a keyword and a
numeral. -/
def Document.terminated : Document where
  title := "Plan\n"
  theme := none
  facts := [⟨"hub", "node\n", .fact, [], [], [], by decide⟩]
  attacks := [⟨"hop", "Hop", .attack, ["hub"], [("hub", "1.5\n")], [], by decide⟩]
  mitigations := []
  goals := []

/-- What is written for the title and these labels is no identifier. -/
theorem Document.terminated_labels_not_shown : ∃ g, terminated.compile .builtin none = .ok g
    ∧ g.title = "Plan\n" ∧ g.nodes.map (·.label) = ["node\n", "Hop"]
    ∧ g.edges.map (·.label) = [some "1.5\n"]
    ∧ ∀ s ∈ ["Plan\n", "node\n", "1.5\n"], ∀ t, ¬ Shows (quoteLabel s.toList) t := by
  have hcompile : terminated.compile .builtin none
      = .ok (draw "Plan\n" (Registry.builtin.resolve none) terminated.nodes) :=
    compile_eq_ok_iff.2 ⟨⟨by decide, by unfold Refers; decide⟩, rfl⟩
  have hloses : ∀ s ∈ ["Plan\n", "node\n", "1.5\n"], LosesEnd s.toList := by decide
  refine ⟨_, hcompile, rfl, by decide, by decide, fun s hs t hshows => ?_⟩
  exact (Dot.shows_quoteLabel_iff.1 hshows).1 (hloses s hs)

end ThreatTree
