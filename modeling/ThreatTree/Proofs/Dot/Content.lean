import ThreatTree.Proofs.Dot.Digraph

/-!
# What is read back of a graph

An attribute is *ordinary* if it is a label, or if its name and its value are sure to be read
back. A graph is ordinary if its attributes are, if no id has a backslash or stands in angle
brackets, and if the edges are between its nodes (`Digraph.IsOrdinary`).

What an ordinary graph can lose are line feeds at the end of ids and labels. It is read back
exactly if it loses none of them: `Digraph.content?_render_iff`. An id can lose one in two ways. It
may stand bare in front of it, and then the text in front of the line feed is read. Or it may
stand there as markup, and then what is read, if anything, ends with a bracket.
-/

namespace ThreatTree.Dot

/-! ## Texts -/

/-- The text starts and ends with an angle bracket. -/
def IsBracketed (s : List Char) : Prop := s.head? = some '<' ∧ s.getLast? = some '>'

instance (s : List Char) : Decidable (IsBracketed s) := inferInstanceAs (Decidable (_ ∧ _))

/-- The text has a line feed at its end that is lost if the text is the id of a node, because the
text stands bare or as markup in front of it. -/
def LosesEndAsId (s : List Char) : Prop :=
  (isBare s = true ∨ isMarkup s = true) ∧ s.getLast? = some '\n'

instance (s : List Char) : Decidable (LosesEndAsId s) := inferInstanceAs (Decidable (_ ∧ _))

/-- A text that is sure to be read back. -/
def IsSafe (s : String) : Prop := IsPlain s ∧ ¬ LosesEnd s.toList

instance (s : String) : Decidable (IsSafe s) := inferInstanceAs (Decidable (_ ∧ _))

theorem ofList_eq_iff {l : List Char} {s : String} : String.ofList l = s ↔ l = s.toList := by
  rw [← String.toList_inj, String.toList_ofList]

theorem IsSafe.ofList_text {s : String} (h : IsSafe s) :
    String.ofList (written s.toList).text = s := by
  rw [ofList_eq_iff, text_written_iff h.1.1]
  exact h.2

/-- Markup that does not end with a bracket ends with a line feed. -/
theorem getLast?_of_isMarkup {s : List Char} (h : isMarkup s = true) (hnot : ¬ IsBracketed s) :
    s.getLast? = some '\n' := by
  rcases dropLineFeed_cases s with ⟨hs, -⟩ | ⟨-, hlast⟩
  · simp only [isMarkup, Bool.and_eq_true, beq_iff_eq, hs] at h
    exact absurd h.1 hnot
  · exact hlast

theorem isBare_keyword : ∀ {k : List Char}, k ∈ keywords → isBare k = false := by decide

/-- A text that keeps its end is not taken for a keyword. -/
theorem about_written {s : List Char} (h : ¬ LosesEnd s) (as : List Assignment) :
    about (written s) as = .node (written s) as := by
  have hne {k : List Char} (hk : k ∈ keywords) : written s ≠ .bare k := by
    intro heq
    unfold written at heq
    split at heq
    · next hbare =>
      have hs : dropLineFeed s = s := dropLineFeed_eq_iff.2 fun hlast => h ⟨hbare, hlast⟩
      rw [← hs, Identifier.bare.inj heq, isBare_keyword hk] at hbare
      cases hbare
    · cases heq
  rw [about, if_neg (hne (by decide)), if_neg (hne (by decide))]

/-! ## Attributes -/

/-- A label, or an attribute that is sure to be read back. -/
def IsOrdinary (a : String × Value) : Prop :=
  match a.2 with
  | .label _ => a.1 = "label"
  | .plain s => a.1 ≠ "label" ∧ IsSafe a.1 ∧ IsSafe s

/-- The attribute is no label that loses its end. -/
def KeepsEnd (a : String × Value) : Prop := ∀ s, a.2 = .label s → ¬ LosesEnd s.toList

theorem keepsEnd_label_iff {name s : String} :
    KeepsEnd (name, .label s) ↔ ¬ LosesEnd s.toList := by
  constructor
  · intro h
    exact h s rfl
  · rintro h t ht
    obtain rfl := Value.label.inj ht
    exact h

theorem keepsEnd_plain (name s : String) : KeepsEnd (name, .plain s) := nofun

theorem isSafe_label : IsSafe "label" := by decide

theorem IsOrdinary.isPlain {a : String × Value} (h : IsOrdinary a) :
    IsPlain a.1 ∧ a.2.IsPlain := by
  obtain ⟨name, value⟩ := a
  cases value with
  | label s =>
    obtain rfl : name = "label" := h
    exact ⟨isSafe_label.1, trivial⟩
  | plain s => exact ⟨h.2.1.1, h.2.2.1⟩

/-- An attribute is read back exactly if it keeps its end. -/
theorem texts_eq_iff {a : String × Value} (h : IsOrdinary a) :
    Assignment.texts (written a.1.toList, a.2.identifier) = (a.1, a.2.text) ↔ KeepsEnd a := by
  obtain ⟨name, value⟩ := a
  cases value with
  | label s =>
    obtain rfl : name = "label" := h
    have hread : Assignment.texts (written "label".toList, (Value.label s).identifier)
        = ("label", String.ofList (written (escape s.toList)).labelText) := by
      rw [Assignment.texts, isSafe_label.ofList_text, if_pos rfl]
      rfl
    rw [hread, keepsEnd_label_iff, ← labelText_written_escape_iff, ← ofList_eq_iff, Prod.mk.injEq]
    exact and_iff_right rfl
  | plain s =>
    obtain ⟨hname, hsafe, hvalue⟩ := h
    refine iff_of_true ?_ nofun
    rw [Assignment.texts, hsafe.ofList_text, if_neg hname]
    exact congrArg _ hvalue.ofList_text

theorem texts_assignments_iff {as : Attributes} (h : ∀ a ∈ as, IsOrdinary a) :
    as.assignments.map Assignment.texts = as.texts ↔ ∀ a ∈ as, KeepsEnd a := by
  rw [Attributes.assignments, List.map_map, Attributes.texts, List.map_inj_left]
  exact forall₂_congr fun a ha => texts_eq_iff (h a ha)

/-! ## Statements -/

theorem NodeStatement.sentence_written_iff {n : NodeStatement} (hid : IsPlain n.id)
    (has : ∀ a ∈ n.attributes, IsOrdinary a) :
    n.written.sentence = n.sentence
      ↔ ¬ LosesEnd n.id.toList ∧ ∀ a ∈ n.attributes, KeepsEnd a := by
  rw [← texts_assignments_iff has]
  constructor
  · intro h
    unfold NodeStatement.written about at h
    split at h
    · cases h
    split at h
    · cases h
    obtain ⟨htext, htexts⟩ := Sentence.node.inj h
    exact ⟨(text_written_iff hid.1).1 (ofList_eq_iff.1 htext), htexts⟩
  · rintro ⟨hkeeps, htexts⟩
    rw [NodeStatement.written, about_written hkeeps, Statement.sentence,
      IsSafe.ofList_text ⟨hid, hkeeps⟩, htexts, NodeStatement.sentence]

theorem EdgeStatement.sentence_written_iff {e : EdgeStatement} (hsource : IsPlain e.source)
    (htarget : IsPlain e.target) (has : ∀ a ∈ e.attributes, IsOrdinary a) :
    e.written.sentence = e.sentence
      ↔ ¬ LosesEnd e.source.toList ∧ ¬ LosesEnd e.target.toList
        ∧ ∀ a ∈ e.attributes, KeepsEnd a := by
  rw [EdgeStatement.written, Statement.sentence, EdgeStatement.sentence, Sentence.edge.injEq,
    ofList_eq_iff, ofList_eq_iff, text_written_iff hsource.1, text_written_iff htarget.1,
    texts_assignments_iff has]

namespace Digraph

/-- All attributes of the graph, its nodes and its edges. -/
def attributes (g : Digraph) : Attributes :=
  g.graphAttributes ++ (g.nodeAttributes ++ (g.edgeAttributes
    ++ (g.nodes.flatMap (·.attributes) ++ g.edges.flatMap (·.attributes))))

theorem forall_mem_attributes {g : Digraph} {p : String × Value → Prop} :
    (∀ a ∈ g.attributes, p a) ↔ (∀ a ∈ g.graphAttributes, p a) ∧ (∀ a ∈ g.nodeAttributes, p a)
      ∧ (∀ a ∈ g.edgeAttributes, p a) ∧ (∀ n ∈ g.nodes, ∀ a ∈ n.attributes, p a)
      ∧ ∀ e ∈ g.edges, ∀ a ∈ e.attributes, p a := by
  simp only [attributes, List.forall_mem_append, List.forall_mem_flatMap]

theorem map_append_eq_iff {α β : Type} {f g : α → β} {l : List α} {s t : List β} :
    l.map f ++ s = l.map g ++ t ↔ (∀ a ∈ l, f a = g a) ∧ s = t := by
  rw [← List.map_inj_left]
  constructor
  · intro h
    exact List.append_inj h (by simp)
  · rintro ⟨h, rfl⟩
    rw [h]

/-- A plain graph is read back exactly if nothing in it loses its end. -/
theorem sentences_written_iff {g : Digraph} (hplain : g.IsPlain)
    (hordinary : ∀ a ∈ g.attributes, IsOrdinary a) :
    g.written.map (·.sentence) = g.sentences
      ↔ (∀ a ∈ g.attributes, KeepsEnd a) ∧ (∀ n ∈ g.nodes, ¬ LosesEnd n.id.toList)
        ∧ ∀ e ∈ g.edges, ¬ LosesEnd e.source.toList ∧ ¬ LosesEnd e.target.toList := by
  obtain ⟨hgraph, hnodes, hedges, hnode, hedge⟩ := forall_mem_attributes.1 hordinary
  have hwritten : g.written.map (·.sentence)
      = g.graphAttributes.map (fun a =>
          (Statement.assignment (Dot.written a.1.toList, a.2.identifier)).sentence)
        ++ .nodes (g.nodeAttributes.assignments.map Assignment.texts)
        :: .edges (g.edgeAttributes.assignments.map Assignment.texts)
        :: (g.nodes.map (fun n => n.written.sentence)
          ++ g.edges.map (fun e => e.written.sentence)) := by
    simp [written, attributeStatements, Attributes.assignments, Statement.sentence,
      Function.comp_def]
  have hsentences : g.sentences
      = g.graphAttributes.map (fun a => .graph a.1 a.2.text)
        ++ .nodes g.nodeAttributes.texts :: .edges g.edgeAttributes.texts
        :: (g.nodes.map (·.sentence) ++ g.edges.map (·.sentence)) := by
    simp [sentences, Attributes.texts, Function.comp_def]
  have hassignment (a : String × Value) (ha : a ∈ g.graphAttributes) :
      (Statement.assignment (Dot.written a.1.toList, a.2.identifier)).sentence
        = .graph a.1 a.2.text ↔ KeepsEnd a := by
    rw [← texts_eq_iff (hgraph a ha), Statement.sentence, Sentence.graph.injEq, Prod.ext_iff]
  rw [hwritten, hsentences, map_append_eq_iff, List.cons.injEq, List.cons.injEq,
    Sentence.nodes.injEq, Sentence.edges.injEq, texts_assignments_iff hnodes,
    texts_assignments_iff hedges, map_append_eq_iff, List.map_inj_left,
    forall₂_congr hassignment,
    forall₂_congr fun n hn =>
      NodeStatement.sentence_written_iff (hplain.nodes n hn).1 (hnode n hn),
    forall₂_congr fun e he =>
      EdgeStatement.sentence_written_iff (hplain.edges e he).1 (hplain.edges e he).2.1
        (hedge e he),
    forall_mem_attributes]
  constructor
  · rintro ⟨hg, hn, he, hnode, hedge⟩
    exact ⟨⟨hg, hn, he, fun n hn => (hnode n hn).2, fun e he => (hedge e he).2.2⟩,
      fun n hn => (hnode n hn).1, fun e he => ⟨(hedge e he).1, (hedge e he).2.1⟩⟩
  · rintro ⟨⟨hg, hn, he, hnode, hedge⟩, hids, hends⟩
    exact ⟨hg, hn, he, fun n hn => ⟨hids n hn, hnode n hn⟩,
      fun e he => ⟨(hends e he).1, (hends e he).2, hedge e he⟩⟩

/-- All but the ids and labels is sure to be read back, and no id has a backslash or stands in
angle brackets. -/
structure IsOrdinary (g : Digraph) : Prop where
  comment : '\n' ∉ g.comment.toList
  name : IsSafe g.name
  attributes : ∀ a ∈ g.attributes, Dot.IsOrdinary a
  ids : ∀ n ∈ g.nodes, '\\' ∉ n.id.toList ∧ ¬ IsBracketed n.id.toList
  ends : ∀ e ∈ g.edges, e.source ∈ g.nodes.map (·.id) ∧ e.target ∈ g.nodes.map (·.id)

/-- Neither an id nor a label loses its end. -/
def KeepsEnds (g : Digraph) : Prop :=
  (∀ n ∈ g.nodes, ¬ LosesEndAsId n.id.toList) ∧ ∀ a ∈ g.attributes, KeepsEnd a

/-- The sentence of a node stands behind as many sentences as there are statements in front of the
line of the node. -/
theorem exists_sentences_eq {g : Digraph} {before after : List NodeStatement} {n : NodeStatement}
    (hnodes : g.nodes = before ++ n :: after) :
    ∃ front rest : List Sentence, g.sentences = front ++ n.sentence :: rest
      ∧ (g.attributeStatements ++ before.map (·.written)).length = front.length := by
  refine ⟨g.graphAttributes.texts.map (fun a => .graph a.1 a.2)
    ++ [.nodes g.nodeAttributes.texts, .edges g.edgeAttributes.texts] ++ before.map (·.sentence),
    after.map (·.sentence) ++ g.edges.map (·.sentence), ?_, ?_⟩
  · simp [sentences, hnodes]
  · simp [attributeStatements, Attributes.texts, Attributes.assignments]

namespace IsOrdinary

variable {g : Digraph} (h : g.IsOrdinary)
include h

theorem forall_ends {p : String → Prop} (hp : ∀ n ∈ g.nodes, p n.id) :
    ∀ e ∈ g.edges, p e.source ∧ p e.target := by
  intro e he
  have hid (id : String) (hmem : id ∈ g.nodes.map (·.id)) : p id := by
    obtain ⟨n, hn, rfl⟩ := List.mem_map.1 hmem
    exact hp n hn
  exact ⟨hid _ (h.ends e he).1, hid _ (h.ends e he).2⟩

theorem isPlain_of_isMarkup_eq_false (hids : ∀ n ∈ g.nodes, isMarkup n.id.toList = false) :
    g.IsPlain := by
  obtain ⟨hgraph, hnodes, hedges, hnode, hedge⟩ := forall_mem_attributes.1 h.attributes
  have hplain (n : NodeStatement) (hn : n ∈ g.nodes) : Dot.IsPlain n.id :=
    ⟨(h.ids n hn).1, hids n hn⟩
  exact
    { comment := h.comment
      name := h.name.1
      graphAttributes := fun a ha => (hgraph a ha).isPlain
      nodeAttributes := fun a ha => (hnodes a ha).isPlain
      edgeAttributes := fun a ha => (hedges a ha).isPlain
      nodes := fun n hn => ⟨hplain n hn, fun a ha => (hnode n hn a ha).isPlain⟩
      edges := fun e he => ⟨(h.forall_ends hplain e he).1, (h.forall_ends hplain e he).2,
        fun a ha => (hedge e he a ha).isPlain⟩ }

/-- A node whose id is markup is read, if it can be read, with another id. -/
theorem sentence_ne_of_isMarkup {n : NodeStatement} (hn : n ∈ g.nodes)
    (hmarkup : isMarkup n.id.toList = true) {st : Statement}
    (hst : ∀ id as, st = .node id as → id.text.getLast? = some '>') :
    st.sentence ≠ n.sentence := by
  intro heq
  cases st with
  | node id as =>
    have htext := ofList_eq_iff.1 (Sentence.node.inj heq).1
    have hlast := hst id as rfl
    rw [htext, getLast?_of_isMarkup hmarkup (h.ids n hn).2] at hlast
    exact absurd hlast (by decide)
  | _ => cases heq

/-- What stands in front of the first node whose id is markup is read as it was written. -/
theorem says_before {before : List NodeStatement} (hsub : ∀ n ∈ before, n ∈ g.nodes)
    (hids : ∀ n ∈ before, isMarkup n.id.toList = false) :
    Says (g.attributeLines ++ nodeLines before)
      (g.attributeStatements ++ before.map (·.written)) := by
  obtain ⟨hgraph, hnodes, hedges, hnode, -⟩ := forall_mem_attributes.1 h.attributes
  have hattributes := says_attributeLines (fun a ha => (hgraph a ha).isPlain)
    (fun a ha => (hnodes a ha).isPlain) (fun a ha => (hedges a ha).isPlain)
  refine hattributes.append (says_flatMap fun n hn => ?_)
  exact NodeStatement.says_render ⟨(h.ids n (hsub n hn)).1, hids n hn⟩
    fun a ha => (hnode n (hsub n hn) a ha).isPlain

/-- A graph with markup for an id is not read back: it goes wrong at the first such id. -/
theorem content?_ne_of_isMarkup {n : NodeStatement} (hn : n ∈ g.nodes)
    (hmarkup : isMarkup n.id.toList = true) :
    content? (String.ofList g.render) ≠ some (g.name, g.sentences) := by
  intro hcontent
  obtain ⟨k, hfirst⟩ : ∃ k, g.nodes.find? (fun n => isMarkup n.id.toList) = some k :=
    Option.isSome_iff_exists.1 (List.find?_isSome.2 ⟨n, hn, hmarkup⟩)
  obtain ⟨hk, before, after, hnodes, hbefore⟩ := List.find?_eq_some_iff_append.1 hfirst
  obtain ⟨rest, hrender⟩ := exists_render_eq_of_isMarkup hnodes hk
  obtain ⟨front, tail, hsplit, hlength⟩ := exists_sentences_eq hnodes
  -- Up to the first markup the statements are as they were written.
  have hfront : Says (g.attributeLines ++ nodeLines before)
      (g.attributeStatements ++ before.map (·.written)) :=
    h.says_before (fun m hm => by simp [hnodes, hm]) (by simpa using hbefore)
  rw [content?, String.toList_ofList, hrender, read?_opening h.comment h.name.1,
    (hfront _ (opensText_markup rest)).2, Option.map_map, Option.map_map,
    Option.map_eq_some_iff] at hcontent
  obtain ⟨ss, hss, hcontent⟩ := hcontent
  -- So the statement that is read at the markup has to be the sentence of its node.
  obtain ⟨st, ss', rfl, hst⟩ := body?_markup hss
  have hsentences := (Prod.mk.inj hcontent).2
  rw [hsplit, List.map_append] at hsentences
  have htail := (List.append_inj hsentences (by rwa [List.length_map])).2
  exact h.sentence_ne_of_isMarkup (List.mem_of_find?_eq_some hfirst) hk hst
    (List.cons.inj htail).1

/-- **An ordinary graph is read back exactly if it keeps its ends.** -/
theorem content?_render_iff :
    content? (String.ofList g.render) = some (g.name, g.sentences) ↔ g.KeepsEnds := by
  by_cases hmarkup : ∃ n ∈ g.nodes, isMarkup n.id.toList = true
  · obtain ⟨n, hn, hn'⟩ := hmarkup
    refine iff_of_false (h.content?_ne_of_isMarkup hn hn') fun hkeeps => ?_
    exact hkeeps.1 n hn ⟨.inr hn', getLast?_of_isMarkup hn' (h.ids n hn).2⟩
  · have hids : ∀ n ∈ g.nodes, isMarkup n.id.toList = false := fun n hn =>
      Bool.eq_false_iff.2 fun hn' => hmarkup ⟨n, hn, hn'⟩
    have hplain := h.isPlain_of_isMarkup_eq_false hids
    have hloses (n : NodeStatement) (hn : n ∈ g.nodes) :
        ¬ LosesEndAsId n.id.toList ↔ ¬ LosesEnd n.id.toList := by
      simp [LosesEndAsId, LosesEnd, hids n hn]
    have hread : content? (String.ofList g.render)
        = some (g.name, g.written.map (·.sentence)) := by
      rw [content?, String.toList_ofList, hplain.read?_render, Option.map_some,
        h.name.ofList_text]
    rw [hread, Option.some.injEq, Prod.mk.injEq, sentences_written_iff hplain h.attributes,
      KeepsEnds, forall₂_congr hloses]
    constructor
    · rintro ⟨-, hkeeps, hids, -⟩
      exact ⟨hids, hkeeps⟩
    · rintro ⟨hids, hkeeps⟩
      exact ⟨rfl, hkeeps, hids, h.forall_ends (p := fun s => ¬ LosesEnd s.toList) hids⟩

end IsOrdinary

end Digraph

end ThreatTree.Dot
