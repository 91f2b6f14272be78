import ThreatTree.Proofs.Dot.Content
import ThreatTree.Proofs.Graph.Check
import ThreatTree.Proofs.Text.Pieces
import ThreatTree.Theme.Builtin

/-!
# The source text of a graph is read back

The texts of the built-in themes are sure to be read back (`Registry.isSafe_of_mem_builtin`), and so
are the names of attributes and the values that do not depend on a theme. So the source text of
a compiled document is that of an ordinary graph (`isOrdinary_digraph`), if its ids are such.

The main statement, `compile_dot`, gives the lines of the source text and says when it is read back:
exactly if the title, the ids and the labels keep the line feeds at their ends.
-/

namespace ThreatTree

open Dot (Sentence IsSafe IsOrdinary LosesEnd LosesEndAsId IsBracketed Digraph content?)

/-! ## Sentences and lines of a graph -/

/-- The attributes that a label stands for: one, if it is not empty. -/
def labelTexts : Option String → List Attribute
  | none => []
  | some s => if s = "" then [] else [("label", s)]

def GraphNode.sentence (n : GraphNode) : Sentence :=
  .node n.id (("label", n.label) :: n.style.attributes)

def GraphEdge.sentence (e : GraphEdge) : Sentence :=
  .edge e.source e.target (labelTexts e.label ++ e.attributes)

namespace Graph

/-- What the source text of a graph in a theme has to say. -/
def sentences (theme : Theme) (g : Graph) : List Sentence :=
  [.graph "bgcolor" theme.background, .graph "fontcolor" theme.titleColor,
    .graph "fontname" theme.fontName, .graph "fontsize" "16", .graph "label" g.title,
    .graph "labelloc" "t", .graph "nodesep" "0.5", .graph "rankdir" "TB", .graph "ranksep" "0.6",
    .nodes [("fontname", theme.fontName), ("fontsize", "10"), ("margin", "0.2,0.1")],
    .edges [("color", theme.edgeColor), ("fontname", theme.fontName), ("fontsize", "9")]]
  ++ g.nodes.map (·.sentence) ++ g.edges.map (·.sentence)

/-- The lines between the braces: three with attributes, one for each node, one for each edge. -/
def lines (theme : Theme) (g : Graph) : List (List Char) :=
  let d := digraph g.title theme g.nodes g.edges
  d.graphAttributes.render :: ("node".toList ++ d.nodeAttributes.renderList)
    :: ("edge".toList ++ d.edgeAttributes.renderList)
    :: (g.nodes.map (fun n => (nodeStatement n).render)
      ++ g.edges.map fun e => (edgeStatement e).render)

/-- The title, the ids and the labels keep their ends. -/
structure KeepsEnds (g : Graph) : Prop where
  title : ¬ LosesEnd g.title.toList
  ids : ∀ n ∈ g.nodes, ¬ LosesEndAsId n.id.toList
  labels : ∀ n ∈ g.nodes, ¬ LosesEnd n.label.toList
  edgeLabels : ∀ e ∈ g.edges, ∀ s, e.label = some s → ¬ LosesEnd s.toList

end Graph

/-! ## Texts of themes -/

namespace Theme

def styles (t : Theme) : List Style :=
  [t.fact, t.attack, t.mitigation, t.goal] ++ t.reality.toList

/-- The colours, fonts, shapes and styles of a theme. -/
def texts (t : Theme) : List String :=
  [t.background, t.titleColor, t.edgeColor, t.edgeLabelColor, t.backwardsEdgeColor, t.fontName]
    ++ t.styles.flatMap fun s => s.attributes.map (·.2)

theorem styleFor_mem_styles (t : Theme) (n : Node) : t.styleFor n ∈ t.styles := by
  unfold styleFor styles
  split
  · cases t.reality <;> simp
  · cases n.category <;> simp [categoryStyle]

end Theme

namespace Registry

theorem resolve_mem (r : Registry) (name : Option String) : r.resolve name ∈ r.themes := by
  cases name with
  | none => exact r.default_mem
  | some name =>
    cases hfound : find? r.themes name with
    | none => simpa [resolve, hfound] using r.default_mem
    | some t => simpa [resolve, hfound] using List.mem_of_find?_eq_some hfound

theorem isSafe_of_mem_builtin :
    ∀ t ∈ builtin.themes, ∀ s ∈ t.texts, IsSafe s := by
  decide +kernel

end Registry

namespace Graph

/-! ## An ordinary graph -/

/-- The names of all attributes but labels. -/
def attributeNames : List String :=
  ["bgcolor", "color", "constraint", "fillcolor", "fontcolor", "fontname", "fontsize", "labelloc",
    "margin", "nodesep", "rankdir", "ranksep", "shape", "style"]

/-- The values that do not depend on a theme. -/
def fixedValues : List String :=
  ["16", "t", "0.5", "TB", "0.6", "10", "0.2,0.1", "9", "false", "dashed"]

theorem isSafe_of_mem_attributeNames : ∀ s ∈ attributeNames, s ≠ "label" ∧ IsSafe s := by
  decide +kernel

theorem isSafe_of_mem_fixedValues : ∀ s ∈ fixedValues, IsSafe s := by
  decide +kernel

/-- A label, or an attribute with one of the names and with a value that is fixed or of the
theme. -/
def IsKnown (theme : Theme) (a : String × Dot.Value) : Prop :=
  match a.2 with
  | .label _ => a.1 = "label"
  | .plain s => a.1 ∈ attributeNames ∧ s ∈ theme.texts ++ fixedValues

theorem IsKnown.isOrdinary {theme : Theme} (htheme : ∀ s ∈ theme.texts, IsSafe s)
    {a : String × Dot.Value} (h : IsKnown theme a) : IsOrdinary a := by
  obtain ⟨name, value⟩ := a
  cases value with
  | label s => exact h
  | plain s =>
    obtain ⟨hlabel, hname⟩ := isSafe_of_mem_attributeNames name h.1
    refine ⟨hlabel, hname, ?_⟩
    rcases List.mem_append.1 h.2 with hvalue | hvalue
    · exact htheme s hvalue
    · exact isSafe_of_mem_fixedValues s hvalue

theorem isKnown_ofPlain {theme : Theme} {as : List Attribute}
    (h : ∀ a ∈ as, a.1 ∈ attributeNames ∧ a.2 ∈ theme.texts ++ fixedValues) :
    ∀ a ∈ Dot.Attributes.ofPlain as, IsKnown theme a := by
  intro a ha
  obtain ⟨b, hb, rfl⟩ := List.mem_map.1 ha
  exact h b hb

theorem isKnown_of_mem_style (theme : Theme) (n : Node) :
    ∀ a ∈ Dot.Attributes.ofPlain (theme.styleFor n).attributes, IsKnown theme a := by
  refine isKnown_ofPlain fun a ha => ⟨?_, ?_⟩
  · have hnames : ∀ b ∈ (theme.styleFor n).attributes, b.1 ∈ attributeNames := by
      simp [Style.attributes, attributeNames]
    exact hnames a ha
  · have hvalue : a.2 ∈ theme.styles.flatMap fun s => s.attributes.map (·.2) :=
      List.mem_flatMap_of_mem (theme.styleFor_mem_styles n) (List.mem_map_of_mem ha)
    rw [Theme.texts, List.append_assoc]
    exact List.mem_append_right _ (List.mem_append_left _ hvalue)

theorem isKnown_of_mem_edgeAttributes (theme : Theme) (backwards : Bool) (label : Option String) :
    ∀ a ∈ Dot.Attributes.ofPlain (edgeAttributes theme backwards label), IsKnown theme a := by
  refine isKnown_ofPlain fun a ha => ?_
  simp only [edgeAttributes, List.mem_append, List.mem_ite_nil_right, List.mem_cons,
    List.not_mem_nil, or_false] at ha
  rcases ha with (⟨-, rfl | rfl⟩ | ⟨-, rfl⟩) | ⟨-, rfl⟩ <;>
    simp [attributeNames, Theme.texts, fixedValues]

/-- The graph that is written for nodes that passed the checks. -/
def written (title : String) (theme : Theme) (nodes : List Node) : Digraph :=
  digraph title theme (nodes.map (ofNode theme)) (nodes.flatMap (edgesInto theme nodes))

theorem isKnown_of_mem_attributes (title : String) (theme : Theme) (nodes : List Node) :
    ∀ a ∈ (written title theme nodes).attributes, IsKnown theme a := by
  refine Digraph.forall_mem_attributes.2 ⟨?graph, ?nodes, ?edges, ?node, ?edge⟩
  case graph => simp [written, digraph, IsKnown, attributeNames, Theme.texts, fixedValues]
  case nodes => simp [written, digraph, IsKnown, attributeNames, Theme.texts, fixedValues]
  case edges => simp [written, digraph, IsKnown, attributeNames, Theme.texts, fixedValues]
  case node =>
    simp only [written, digraph, List.forall_mem_map]
    intro n hn
    exact List.forall_mem_cons.2 ⟨rfl, isKnown_of_mem_style theme n⟩
  case edge =>
    simp only [written, digraph, List.forall_mem_map, List.forall_mem_flatMap]
    intro n hn e he
    obtain ⟨p, -, rfl⟩ := List.mem_map.1 he
    refine List.forall_mem_append.2 ⟨?_, isKnown_of_mem_edgeAttributes theme _ _⟩
    intro a ha
    obtain ⟨s, -, rfl⟩ := Option.map_eq_some_iff.1 (Option.mem_toList.1 ha)
    rfl

theorem lineFeed_not_mem_titleLine (title : String) : '\n' ∉ (titleLine title).toList := by
  rw [titleLine, String.toList_ofList]
  intro h
  rcases Text.mem_of_mem_join h with h | ⟨w, hw, h⟩
  · exact absurd h (by decide)
  · exact Text.not_isBlank_of_mem_words w hw '\n' h (by decide)

/-- The source text of nodes that passed the checks is that of an ordinary graph. -/
theorem isOrdinary_written (title : String) {theme : Theme}
    (htheme : ∀ s ∈ theme.texts, IsSafe s) {nodes : List Node} (hrefers : Refers nodes)
    (hids : ∀ n ∈ nodes, '\\' ∉ n.id.toList ∧ ¬ IsBracketed n.id.toList) :
    (written title theme nodes).IsOrdinary := by
  have hname : IsSafe "AttackTree" := by decide
  have hmap : (written title theme nodes).nodes.map (·.id) = nodes.map (·.id) := by
    simp [written, digraph, nodeStatement, ofNode, Function.comp_def]
  constructor
  case comment =>
    simp only [written, digraph, String.toList_append, List.mem_append, not_or]
    exact ⟨by decide, lineFeed_not_mem_titleLine title⟩
  case name => exact hname
  case attributes =>
    exact fun a ha => (isKnown_of_mem_attributes title theme nodes a ha).isOrdinary htheme
  case ids => simpa [written, digraph, nodeStatement, ofNode] using hids
  case ends =>
    rw [hmap]
    simp only [written, digraph, List.forall_mem_map, List.forall_mem_flatMap]
    intro n hn e he
    obtain ⟨p, hp, rfl⟩ := List.mem_map.1 he
    exact ⟨hrefers n hn p (mem_distinct.1 hp), List.mem_map_of_mem hn⟩

/-! ## Reading -/

theorem texts_ofPlain (as : List Attribute) : (Dot.Attributes.ofPlain as).texts = as := by
  simp [Dot.Attributes.ofPlain, Dot.Attributes.texts, Dot.Value.text, Function.comp_def]

theorem sentence_nodeStatement (n : GraphNode) : (nodeStatement n).sentence = n.sentence := by
  have htexts := texts_ofPlain n.style.attributes
  rw [Dot.Attributes.texts] at htexts
  rw [Dot.NodeStatement.sentence, nodeStatement, Dot.Attributes.texts, List.map_cons, htexts]
  rfl

theorem sentence_edgeStatement (e : GraphEdge) : (edgeStatement e).sentence = e.sentence := by
  have htexts := texts_ofPlain e.attributes
  have hlabel : Dot.Attributes.texts ((shownLabel e.label).map fun s => ("label", .label s)).toList
      = labelTexts e.label := by
    cases e.label with
    | none => rfl
    | some s =>
      by_cases hs : s = "" <;>
        simp [shownLabel, labelTexts, hs, Dot.Attributes.texts, Dot.Value.text]
  rw [Dot.Attributes.texts] at htexts hlabel
  rw [Dot.EdgeStatement.sentence, edgeStatement, Dot.Attributes.texts, List.map_append, htexts,
    hlabel]
  rfl

theorem sentences_digraph (theme : Theme) (g : Graph) :
    (digraph g.title theme g.nodes g.edges).sentences = g.sentences theme := by
  simp only [Digraph.sentences, digraph, List.map_map, Function.comp_def, sentence_nodeStatement,
    sentence_edgeStatement]
  rfl

theorem keepsEnd_ofPlain (as : List Attribute) :
    ∀ a ∈ Dot.Attributes.ofPlain as, Dot.KeepsEnd a := by
  intro a ha
  obtain ⟨b, -, rfl⟩ := List.mem_map.1 ha
  exact Dot.keepsEnd_plain b.1 b.2

theorem forall_keepsEnd_nodeStatement {n : GraphNode} :
    (∀ a ∈ (nodeStatement n).attributes, Dot.KeepsEnd a) ↔ ¬ LosesEnd n.label.toList := by
  rw [nodeStatement, List.forall_mem_cons, Dot.keepsEnd_label_iff]
  exact and_iff_left (keepsEnd_ofPlain n.style.attributes)

theorem forall_keepsEnd_edgeStatement {e : GraphEdge} :
    (∀ a ∈ (edgeStatement e).attributes, Dot.KeepsEnd a)
      ↔ ∀ s, e.label = some s → ¬ LosesEnd s.toList := by
  rw [edgeStatement, List.forall_mem_append, and_iff_left (keepsEnd_ofPlain e.attributes)]
  have hempty : ¬ LosesEnd [] := by decide
  cases e.label with
  | none => simp [shownLabel]
  | some s =>
    by_cases hs : s = ""
    · simp [shownLabel, hs, hempty]
    · simp [shownLabel, hs, Dot.keepsEnd_label_iff]

theorem keepsEnds_digraph_iff {theme : Theme} {g : Graph} :
    (digraph g.title theme g.nodes g.edges).KeepsEnds ↔ g.KeepsEnds := by
  have hgraph : (∀ a ∈ (digraph g.title theme g.nodes g.edges).graphAttributes, Dot.KeepsEnd a)
      ↔ ¬ LosesEnd g.title.toList := by
    simp [digraph, Dot.keepsEnd_label_iff, Dot.keepsEnd_plain]
  have hnodes : ∀ a ∈ (digraph g.title theme g.nodes g.edges).nodeAttributes, Dot.KeepsEnd a := by
    simp [digraph, Dot.keepsEnd_plain]
  have hedges : ∀ a ∈ (digraph g.title theme g.nodes g.edges).edgeAttributes, Dot.KeepsEnd a := by
    simp [digraph, Dot.keepsEnd_plain]
  rw [Digraph.KeepsEnds, Digraph.forall_mem_attributes, hgraph]
  simp only [digraph, List.forall_mem_map, forall_keepsEnd_nodeStatement,
    forall_keepsEnd_edgeStatement]
  constructor
  · rintro ⟨hids, htitle, -, -, hlabels, hedgeLabels⟩
    exact ⟨htitle, hids, hlabels, hedgeLabels⟩
  · rintro ⟨htitle, hids, hlabels, hedgeLabels⟩
    exact ⟨hids, htitle, hnodes, hedges, hlabels, hedgeLabels⟩

theorem render_digraph (theme : Theme) (g : Graph) :
    (digraph g.title theme g.nodes g.edges).render
      = "// ".toList ++ (digraph g.title theme g.nodes g.edges).comment.toList ++ ['\n']
        ++ "digraph AttackTree \x7b\n".toList
        ++ (g.lines theme).flatMap Digraph.statement ++ "\x7d\n".toList := by
  have hname : "digraph ".toList ++ Dot.quote "AttackTree".toList ++ [' ', '\x7b', '\n']
      = "digraph AttackTree \x7b\n".toList := by decide
  have hclose : "\x7d\n".toList = ['\x7d', '\n'] := by decide
  have hnodes : (digraph g.title theme g.nodes g.edges).nodes = g.nodes.map nodeStatement := rfl
  have hedges : (digraph g.title theme g.nodes g.edges).edges = g.edges.map edgeStatement := rfl
  have hgraph : (digraph g.title theme g.nodes g.edges).name = "AttackTree" := rfl
  unfold Digraph.render lines
  rw [← hname, hclose, hnodes, hedges, hgraph]
  simp only [List.flatMap_cons, List.flatMap_append, List.flatMap_map, List.append_assoc]

/-- When the source text of nodes that passed the checks is read back. -/
theorem content?_dot_iff (title : String) {theme : Theme} (htheme : theme ∈ Registry.builtin.themes)
    {nodes : List Node} (hrefers : Refers nodes)
    (hids : ∀ n ∈ nodes, '\\' ∉ n.id.toList ∧ ¬ IsBracketed n.id.toList) :
    content? (draw title theme nodes).dot
        = some ("AttackTree", (draw title theme nodes).sentences theme)
      ↔ (draw title theme nodes).KeepsEnds := by
  rw [← keepsEnds_digraph_iff, ← sentences_digraph]
  exact (isOrdinary_written title (Registry.isSafe_of_mem_builtin theme htheme) hrefers
    hids).content?_render_iff

end Graph

open ThreatTree.Graph

/-- **The source text of a compiled document, and when it is read back.** The built-in themes are
used, and no id has a backslash or stands in angle brackets. Then the source text is a comment
line and the lines of the graph in braces. It says what is compiled exactly if the title, the
ids and the labels keep their ends: a line feed there is lost behind a bare or a bracketed
text. -/
theorem Document.compile_dot {d : Document} {theme : Option String} {g : Graph}
    (h : d.compile .builtin theme = .ok g)
    (hids : ∀ n ∈ d.nodes, '\\' ∉ n.id.toList ∧ ¬ IsBracketed n.id.toList) :
    (∃ comment : List Char, '\n' ∉ comment ∧ g.dot.toList
      = "// ".toList ++ comment ++ ['\n'] ++ "digraph AttackTree \x7b\n".toList
        ++ (g.lines (Registry.builtin.resolve (d.chosenTheme theme))).flatMap Digraph.statement
        ++ "\x7d\n".toList)
    ∧ (content? g.dot
        = some ("AttackTree", g.sentences (Registry.builtin.resolve (d.chosenTheme theme)))
      ↔ g.KeepsEnds) := by
  obtain ⟨⟨-, hrefers⟩, rfl⟩ := compile_eq_ok_iff.1 h
  have htheme := Registry.builtin.resolve_mem (d.chosenTheme theme)
  have hordinary :=
    isOrdinary_written d.title (Registry.isSafe_of_mem_builtin _ htheme) hrefers hids
  refine ⟨⟨_, hordinary.comment, ?_⟩, content?_dot_iff d.title htheme hrefers hids⟩
  rw [draw, String.toList_ofList]
  exact render_digraph _ (draw d.title _ d.nodes)

/-- A document with a keyword for an id, and with quotes, brackets, braces, backslashes, comment
marks and line feeds in its title, ids and labels. -/
def Document.prickly : Document where
  title := "\"\\\n// \x7d [label=\\\"x\\\"]\n"
  theme := some "dark"
  facts := [⟨"node", "<b>A</b>", .fact, [], [], [], by decide⟩]
  attacks := [⟨"a:b \"-> [\x7b", "C:\\", .attack, ["node", "<\n"],
    [("node", "\\\\\""), ("<\n", "")], [], by decide⟩]
  mitigations := []
  goals := [⟨"<\n", "two words\n", .goal, [], [], [], by decide⟩]

theorem Document.prickly_compile_dot : ∃ g, prickly.compile .builtin none = .ok g
    ∧ content? g.dot = some ("AttackTree", g.sentences .dark)
    ∧ g.nodes.map (·.label) = ["<b>A</b>", "C:\\", "two words\n"]
    ∧ g.edges.map (fun e => (e.source, e.target, e.label))
      = [("node", "a:b \"-> [\x7b", some "\\\\\""), ("<\n", "a:b \"-> [\x7b", some "")] := by
  have hcompile : prickly.compile .builtin none
      = .ok (draw prickly.title (Registry.builtin.resolve (some "dark")) prickly.nodes) :=
    compile_eq_ok_iff.2 ⟨⟨by decide, by unfold Refers; decide⟩, rfl⟩
  have hids : ∀ n ∈ prickly.nodes, '\\' ∉ n.id.toList ∧ ¬ IsBracketed n.id.toList := by decide
  refine ⟨_, hcompile, (compile_dot hcompile hids).2.2 ⟨?_, ?_, ?_, ?_⟩, by decide, by decide⟩
  all_goals decide

/-- A document whose title ends with a line feed, and whose only id is a keyword with a line feed
behind it. -/
def Document.trailing : Document where
  title := "Plan\n"
  theme := none
  facts := [⟨"node\n", "A", .fact, [], [], [], by decide⟩]
  attacks := []
  mitigations := []
  goals := []

/-- The source text does not say what is compiled, though no id has a backslash or stands in angle
brackets. -/
theorem Document.trailing_not_read_back : ∃ g, trailing.compile .builtin none = .ok g
    ∧ (∀ n ∈ trailing.nodes, '\\' ∉ n.id.toList ∧ ¬ IsBracketed n.id.toList)
    ∧ content? g.dot ≠ some ("AttackTree", g.sentences .standard) := by
  have hrefers : Refers trailing.nodes := by unfold Refers; decide
  have hcompile : trailing.compile .builtin none
      = .ok (draw trailing.title .standard trailing.nodes) :=
    compile_eq_ok_iff.2 ⟨⟨by decide, hrefers⟩, rfl⟩
  have hids : ∀ n ∈ trailing.nodes, '\\' ∉ n.id.toList ∧ ¬ IsBracketed n.id.toList := by decide
  refine ⟨_, hcompile, hids, fun hread => ?_⟩
  have hkeeps := (content?_dot_iff trailing.title Registry.builtin.default_mem hrefers hids).1 hread
  exact hkeeps.title (by decide)

end ThreatTree
