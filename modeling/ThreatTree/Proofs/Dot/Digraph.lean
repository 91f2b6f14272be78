import ThreatTree.Proofs.Dot.Line

/-!
# Graphs that are written and read

A graph is *plain* if all that is written as an identifier is written bare or in quotes
(`Digraph.IsPlain`). A plain graph is read as its statements, in order: `IsPlain.read?_render`.

A text in angle brackets is written as it is. A line that starts with such a text is read, if it
can be read, as a statement about an id that ends with a bracket: `body?_markup`.
-/

namespace ThreatTree.Dot

/-! ## Statements -/

def NodeStatement.written (n : NodeStatement) : Statement :=
  about (Dot.written n.id.toList) n.attributes.assignments

def EdgeStatement.written (e : EdgeStatement) : Statement :=
  .edge (Dot.written e.source.toList) (Dot.written e.target.toList) e.attributes.assignments

theorem NodeStatement.says_render {n : NodeStatement} (hid : IsPlain n.id)
    (has : n.attributes.IsPlain) :
    Says (Digraph.statement n.render) [n.written] :=
  says_about hid.readsAs has

theorem EdgeStatement.says_render {e : EdgeStatement} (hsource : IsPlain e.source)
    (htarget : IsPlain e.target) (has : e.attributes.IsPlain) :
    Says (Digraph.statement e.render) [e.written] :=
  says_edge hsource.readsAs htarget.readsAs has

namespace Digraph

/-- The comment, and the start of the graph. -/
def opening (g : Digraph) : List Char :=
  "// ".toList ++ g.comment.toList ++ ['\n'] ++ "digraph ".toList ++ quote g.name.toList
    ++ [' ', '\x7b', '\n']

/-- The lines with attributes for the graph, all nodes and all edges. -/
def attributeLines (g : Digraph) : List Char :=
  statement g.graphAttributes.render ++ statement ("node".toList ++ g.nodeAttributes.renderList)
    ++ statement ("edge".toList ++ g.edgeAttributes.renderList)

def nodeLines (nodes : List NodeStatement) : List Char :=
  nodes.flatMap fun n => statement n.render

def edgeLines (edges : List EdgeStatement) : List Char :=
  edges.flatMap fun e => statement e.render

theorem render_eq (g : Digraph) : g.render
    = g.opening
      ++ (g.attributeLines ++ (nodeLines g.nodes ++ (edgeLines g.edges ++ ['\x7d', '\n']))) := by
  unfold render opening attributeLines nodeLines edgeLines
  simp only [List.append_assoc]

/-- The statements about the graph, all nodes and all edges. -/
def attributeStatements (g : Digraph) : List Statement :=
  g.graphAttributes.assignments.map .assignment
    ++ [.nodes g.nodeAttributes.assignments] ++ [.edges g.edgeAttributes.assignments]

/-- The statements that are read where the graph was written. -/
def written (g : Digraph) : List Statement :=
  g.attributeStatements ++ (g.nodes.map (·.written) ++ g.edges.map (·.written))

/-! ## Reading a graph -/

theorem tokens?_comment {s : List Char} (h : '\n' ∉ s) (rest : List Char) :
    tokens? ('/' :: '/' :: (s ++ '\n' :: rest)) = tokens? rest := by
  have hdrop : (s ++ '\n' :: rest).dropWhile (· ≠ '\n') = '\n' :: rest := by
    rw [List.dropWhile_append_of_pos fun c hc => ?_]
    · simp
    · have hne : c ≠ '\n' := fun heq => h (heq ▸ hc)
      simpa using hne
  rw [tokens?, hdrop, tokens?_blank (.inr (.inr rfl))]

theorem opening_append (g : Digraph) (rest : List Char) :
    g.opening ++ rest = '/' :: '/' :: ((' ' :: g.comment.toList) ++ '\n'
      :: ("digraph".toList ++ ' ' :: (quote g.name.toList ++ ' ' :: '\x7b' :: '\n' :: rest))) := by
  have hmark : "// ".toList = ['/', '/', ' '] := by decide
  have hkeyword : "digraph ".toList = "digraph".toList ++ [' '] := by decide
  unfold opening
  rw [hmark, hkeyword]
  simp only [List.append_assoc, List.cons_append, List.nil_append]

theorem parts?_opening {g : Digraph} (hcomment : '\n' ∉ g.comment.toList) (hname : IsPlain g.name)
    (rest : List Char) :
    parts? (g.opening ++ rest) = (parts? rest).map fun is =>
      .token (.identifier (.bare "digraph".toList))
        :: .token (.identifier (Dot.written g.name.toList)) :: .token .openBrace :: is := by
  have hfeed : '\n' ∉ ' ' :: g.comment.toList := by simpa using hcomment
  have hkeyword : ReadsAs "digraph".toList (.bare "digraph".toList) := readsAs_bare (by decide)
  have hbrace : parts? (' ' :: '\x7b' :: '\n' :: rest)
      = (parts? rest).map (.token .openBrace :: ·) := by
    rw [parts?_blank (.inl rfl), ← parts?_blank (.inr (.inr rfl)) rest]
    exact parts?_of_tokens? (by rw [tokens?]) (by simp) (by simp)
  calc parts? (g.opening ++ rest)
      = parts? ("digraph".toList
          ++ ' ' :: (quote g.name.toList ++ ' ' :: '\x7b' :: '\n' :: rest)) := by
        rw [opening_append, parts?, tokens?_comment hfeed, ← parts?]
    _ = _ := by
        rw [hkeyword.parts? (isApart_cons rfl _), parts?_blank (.inl rfl),
          hname.readsAs.parts? (isApart_cons rfl _), hbrace, Option.map_map, Option.map_map]
        rfl

theorem read?_opening {g : Digraph} (hcomment : '\n' ∉ g.comment.toList) (hname : IsPlain g.name)
    (rest : List Char) :
    read? (g.opening ++ rest) = (body? rest).map (Dot.written g.name.toList, ·) := by
  show (parts? (g.opening ++ rest)).bind _ = _
  rw [parts?_opening hcomment hname, body?, Option.bind_map, Option.map_bind]
  rfl

theorem parts?_close : parts? ['\x7d', '\n'] = some [.token .closeBrace] := by
  have hfeed : parts? ['\n'] = some [] := by
    rw [parts?_blank (.inr (.inr rfl)), parts?, tokens?]
    rfl
  have hbrace : tokens? ['\x7d', '\n'] = (tokens? ['\n']).map (.closeBrace :: ·) := by rw [tokens?]
  rw [parts?_of_tokens? hbrace (by simp) (by simp), hfeed]
  rfl

theorem opensText_close : OpensText ['\x7d', '\n'] := by
  intro is his
  obtain rfl := Option.some.inj (parts?_close.symm.trans his)
  trivial

theorem body?_close : body? ['\x7d', '\n'] = some [] := by
  rw [body?, parts?_close]
  rfl

theorem says_attributeLines {g : Digraph} (hgraph : g.graphAttributes.IsPlain)
    (hnodes : g.nodeAttributes.IsPlain) (hedges : g.edgeAttributes.IsPlain) :
    Says g.attributeLines g.attributeStatements :=
  ((says_attributes hgraph).append (says_about (readsAs_bare (by decide)) hnodes)).append
    (says_about (readsAs_bare (by decide)) hedges)

/-- All that is written as an identifier is plain. -/
structure IsPlain (g : Digraph) : Prop where
  comment : '\n' ∉ g.comment.toList
  name : Dot.IsPlain g.name
  graphAttributes : g.graphAttributes.IsPlain
  nodeAttributes : g.nodeAttributes.IsPlain
  edgeAttributes : g.edgeAttributes.IsPlain
  nodes : ∀ n ∈ g.nodes, Dot.IsPlain n.id ∧ n.attributes.IsPlain
  edges : ∀ e ∈ g.edges, Dot.IsPlain e.source ∧ Dot.IsPlain e.target ∧ e.attributes.IsPlain

/-- A plain graph is read as its statements. -/
theorem IsPlain.read?_render {g : Digraph} (h : g.IsPlain) :
    read? g.render = some (Dot.written g.name.toList, g.written) := by
  have hattributes := says_attributeLines h.graphAttributes h.nodeAttributes h.edgeAttributes
  have hnodes : Says (nodeLines g.nodes) (g.nodes.map (·.written)) :=
    says_flatMap fun n hn => NodeStatement.says_render (h.nodes n hn).1 (h.nodes n hn).2
  have hedges : Says (edgeLines g.edges) (g.edges.map (·.written)) :=
    says_flatMap fun e he =>
      EdgeStatement.says_render (h.edges e he).1 (h.edges e he).2.1 (h.edges e he).2.2
  have hbody := (hattributes.append (hnodes.append hedges)) _ opensText_close
  rw [List.append_assoc, List.append_assoc, body?_close] at hbody
  rw [render_eq, read?_opening h.comment h.name, hbody.2, Option.map_some, Option.map_some,
    List.append_nil, written]

end Digraph

/-! ## Markup -/

theorem head?_of_isMarkup {s : List Char} (h : isMarkup s = true) : s.head? = some '<' := by
  simp only [isMarkup, Bool.and_eq_true, beq_iff_eq] at h
  rcases dropLineFeed_cases s with ⟨hs, -⟩ | ⟨hs, -⟩
  · rw [← hs]
    exact h.1.1
  · rw [hs, List.head?_append, h.1.1]
    rfl

/-- The line of a node whose id is markup starts with an angle bracket. -/
theorem Digraph.exists_render_eq_of_isMarkup {g : Digraph} {before after : List NodeStatement}
    {n : NodeStatement} (hnodes : g.nodes = before ++ n :: after)
    (hmarkup : isMarkup n.id.toList = true) :
    ∃ rest, g.render
      = g.opening ++ (g.attributeLines ++ nodeLines before ++ '\t' :: '<' :: rest) := by
  obtain ⟨t, ht⟩ := List.head?_eq_some_iff.1 (head?_of_isMarkup hmarkup)
  have hquote : quote n.id.toList = '<' :: t := by rw [quote, if_pos hmarkup, ht]
  refine ⟨t ++ n.attributes.renderList ++ ['\n']
    ++ (nodeLines after ++ (edgeLines g.edges ++ ['\x7d', '\n'])), ?_⟩
  rw [render_eq, hnodes]
  simp [nodeLines, statement, NodeStatement.render, hquote]

theorem getLast?_of_cutMarkup {depth : Nat} {s : List Char} {p : List Char × List Char}
    (h : cutMarkup depth s = some p) : p.1.getLast? = some '>' := by
  fun_induction cutMarkup depth s generalizing p with
  | case1 => simp at h
  | case2 depth rest ih =>
    obtain ⟨q, hq, rfl⟩ := Option.map_eq_some_iff.1 h
    simp [List.getLast?_cons, ih hq]
  | case3 depth rest hd => simp only [Option.some.injEq] at h; simp [← h]
  | case4 depth rest hd ih =>
    obtain ⟨q, hq, rfl⟩ := Option.map_eq_some_iff.1 h
    simp [List.getLast?_cons, ih hq]
  | case5 depth c rest _ _ ih =>
    obtain ⟨q, hq, rfl⟩ := Option.map_eq_some_iff.1 h
    simp [List.getLast?_cons, ih hq]

/-- On a line that starts with markup, the first part is markup that ends with a bracket. -/
theorem parts?_markup {s : List Char} {is : List Item} (h : parts? ('\t' :: '<' :: s) = some is) :
    ∃ m its, is = .token (.identifier (.markup m)) :: its ∧ m.getLast? = some '>' := by
  rw [parts?_blank (.inr (.inl rfl))] at h
  cases hcut : cutMarkup 1 s with
  | none =>
    rw [parts?, tokens?] at h
    split at h
    · cases h
    · next p hp => exact absurd hp (by simp [hcut])
  | some p =>
    have htokens : tokens? ('<' :: s)
        = (tokens? p.2).map (.identifier (.markup ('<' :: p.1)) :: ·) := by
      rw [tokens?]
      split
      · next hnone => exact absurd hnone (by simp [hcut])
      · next q hq =>
        obtain rfl : p = q := Option.some.inj (hcut.symm.trans hq)
        rfl
    rw [parts?_of_tokens? htokens (by simp) (by simp)] at h
    obtain ⟨its, -, rfl⟩ := Option.map_eq_some_iff.1 h
    exact ⟨_, its, rfl, by simp [List.getLast?_cons, getLast?_of_cutMarkup hcut]⟩

theorem opensText_markup (s : List Char) : OpensText ('\t' :: '<' :: s) := by
  intro is his
  obtain ⟨m, its, rfl, -⟩ := parts?_markup his
  trivial

/-- A statement that starts with markup is about markup, if it is about a node. -/
theorem subject_of_markup {m : List Char} {its : List Item} {ss : List Statement}
    (h : statements? (.token (.identifier (.markup m)) :: its) = some ss) :
    ∃ s ss', ss = s :: ss' ∧ ∀ id as, s = .node id as → id = .markup m := by
  have habout (as : List Assignment) (id : Identifier) (bs : List Assignment)
      (heq : about (.markup m) as = .node id bs) : id = .markup m := by
    obtain ⟨rfl, -⟩ := Statement.node.inj heq
    rfl
  unfold statements? at h
  split at h
  · next heq => cases heq
  · next heq =>
    obtain ⟨ss', -, rfl⟩ := Option.map_eq_some_iff.1 h
    exact ⟨_, ss', rfl, nofun⟩
  · next heq =>
    obtain ⟨ss', -, rfl⟩ := Option.map_eq_some_iff.1 h
    exact ⟨_, ss', rfl, nofun⟩
  · next heq =>
    obtain ⟨ss', -, rfl⟩ := Option.map_eq_some_iff.1 h
    exact ⟨_, ss', rfl, nofun⟩
  · next heq =>
    cases heq
    obtain ⟨ss', -, rfl⟩ := Option.map_eq_some_iff.1 h
    exact ⟨_, ss', rfl, habout _⟩
  · next heq =>
    cases heq
    obtain ⟨ss', -, rfl⟩ := Option.map_eq_some_iff.1 h
    exact ⟨_, ss', rfl, habout _⟩
  · cases h

/-- The first statement on a line that starts with markup is about no node whose id ends with
anything but a bracket. -/
theorem body?_markup {s : List Char} {ss : List Statement}
    (h : body? ('\t' :: '<' :: s) = some ss) :
    ∃ st ss', ss = st :: ss' ∧ ∀ id as, st = .node id as → id.text.getLast? = some '>' := by
  obtain ⟨is, his, hss⟩ := Option.bind_eq_some_iff.1 h
  obtain ⟨m, its, rfl, hlast⟩ := parts?_markup his
  obtain ⟨st, ss', rfl, hsubject⟩ := subject_of_markup hss
  refine ⟨st, ss', rfl, ?_⟩
  rintro id as rfl
  rw [hsubject id as rfl]
  exact hlast

end ThreatTree.Dot
