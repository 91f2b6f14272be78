import ThreatTree.Document.OfValue
import ThreatTree.Proofs.Graph.Declared
import ThreatTree.Proofs.Location.Offsets
import ThreatTree.Proofs.Location.Partition

/-!
# Titles of drawn elements

A drawn node has its id as its title, and a drawn edge has the ids of its ends, joined by an arrow.
An id may hold an arrow itself, so elements may have one title.

There are two main statements. `element?_resolves` says for every index what is found by a title: a
node if there is one, or else the located edge with the shortest source (`IsShortest`). And
`compile_titles` says for every document that compiles, and every text, when titles tell the
located elements apart: exactly if the titles of located edges are distinct, and no located node has
one of them (`HasClearTitles`).
-/

namespace ThreatTree

namespace Location

/-! ## Arrows -/

theorem mem_arrowCuts {s : List Char} {p : List Char × List Char} :
    p ∈ arrowCuts s ↔ s = p.1 ++ '-' :: '>' :: p.2 := by
  obtain ⟨front, back⟩ := p
  fun_induction arrowCuts s generalizing front back with
  | case1 rest ih =>
    simp only [List.mem_cons, Prod.mk.injEq, List.mem_map, Prod.exists]
    constructor
    · rintro (⟨rfl, rfl⟩ | ⟨front, back, hmem, rfl, rfl⟩)
      · rfl
      · rw [(ih front back).1 hmem]
        rfl
    · intro h
      match front with
      | [] => exact .inl ⟨rfl, by simpa using h.symm⟩
      | [c] => simp at h
      | c :: c' :: front =>
        simp only [List.cons_append, List.cons.injEq] at h
        obtain ⟨rfl, rfl, h⟩ := h
        exact .inr ⟨front, back, (ih front back).2 h, rfl, rfl⟩
  | case2 c rest hne ih =>
    simp only [List.mem_map, Prod.mk.injEq, Prod.exists]
    constructor
    · rintro ⟨front, back, hmem, rfl, rfl⟩
      rw [(ih front back).1 hmem]
      rfl
    · intro h
      cases front with
      | nil =>
        obtain ⟨rfl, rfl⟩ := List.cons.inj h
        exact absurd rfl (hne back rfl)
      | cons c' front =>
        obtain ⟨rfl, hrest⟩ := List.cons.inj h
        exact ⟨front, back, (ih front back).2 hrest, rfl, rfl⟩
  | case3 => simp

/-- Cuts are in order of their first parts. -/
theorem pairwise_arrowCuts (s : List Char) :
    (arrowCuts s).Pairwise fun p q => p.1.length < q.1.length := by
  fun_induction arrowCuts s with
  | case1 rest ih =>
    refine List.pairwise_cons.2 ⟨fun q hq => ?_, List.pairwise_map.2 (ih.imp fun h => ?_)⟩
    · obtain ⟨q, -, rfl⟩ := List.mem_map.1 hq
      exact Nat.succ_pos _
    · exact Nat.add_lt_add_right h 2
  | case2 c rest _ ih => exact List.pairwise_map.2 (ih.imp fun h => Nat.add_lt_add_right h 1)
  | case3 => exact List.Pairwise.nil

theorem edgeTitle_eq_iff {source target title : String} :
    edgeTitle (source, target) = title
      ↔ title.toList = source.toList ++ '-' :: '>' :: target.toList := by
  have harrow : "->".toList = ['-', '>'] := by decide
  rw [← String.toList_inj, edgeTitle, String.toList_append, String.toList_append, harrow,
    List.append_assoc, eq_comm]
  rfl

/-- Edges into one node have different titles. -/
theorem source_eq_of_edgeTitle_eq {source source' target : String}
    (h : edgeTitle (source, target) = edgeTitle (source', target)) : source = source' := by
  rw [edgeTitle_eq_iff, edgeTitle_eq_iff.1 rfl] at h
  exact String.toList_inj.1 (List.append_cancel_right h).symm

theorem mem_arrowCuts_title {source target title : String} :
    (source.toList, target.toList) ∈ arrowCuts title.toList
      ↔ edgeTitle (source, target) = title := by
  rw [mem_arrowCuts, edgeTitle_eq_iff]

/-- An arrow that starts in front of another one, or is the same. -/
theorem arrow_eq_cases {front back back' : List Char}
    (h : '-' :: '>' :: back = front ++ '-' :: '>' :: back') :
    front = [] ∨ ∃ between, front = '-' :: '>' :: between
      ∧ back = between ++ '-' :: '>' :: back' := by
  match front with
  | [] => exact .inl rfl
  | [c] => simp at h
  | c :: c' :: between =>
    simp only [List.cons_append, List.cons.injEq] at h
    obtain ⟨rfl, rfl, h⟩ := h
    exact .inr ⟨between, rfl, h⟩

theorem eq_nil_of_arrow_eq {front back back' : List Char} (hfront : ¬ ['-', '>'] <:+: front)
    (h : '-' :: '>' :: back = front ++ '-' :: '>' :: back') : front = [] := by
  rcases arrow_eq_cases h with hnil | ⟨between, rfl, -⟩
  · exact hnil
  · exact absurd (List.prefix_append ['-', '>'] between).isInfix hfront

/-- Edges with one title are the same if their sources are equally long. -/
theorem ends_eq_of_length_eq {e e' : String × String} (h : edgeTitle e = edgeTitle e')
    (hlength : e.1.length = e'.1.length) : e = e' := by
  obtain ⟨source, target⟩ := e
  obtain ⟨source', target'⟩ := e'
  rw [edgeTitle_eq_iff, edgeTitle_eq_iff.1 rfl] at h
  have hlength' : source'.toList.length = source.toList.length := by
    rw [String.length_toList, String.length_toList, hlength]
  obtain ⟨hsource, hrest⟩ := List.append_inj h hlength'
  obtain ⟨-, htarget⟩ := List.cons.inj (List.cons.inj hrest).2
  rw [String.toList_inj.1 hsource, String.toList_inj.1 htarget]

/-- Edges with one title are the same if their sources have no arrow. -/
theorem ends_eq_of_edgeTitle_eq {e e' : String × String} (h : edgeTitle e = edgeTitle e')
    (harrow : ¬ ['-', '>'] <:+: e.1.toList) (harrow' : ¬ ['-', '>'] <:+: e'.1.toList) :
    e = e' := by
  apply ends_eq_of_length_eq h
  rw [← String.length_toList, ← String.length_toList]
  rw [edgeTitle_eq_iff, edgeTitle_eq_iff.1 rfl, List.append_eq_append_iff] at h
  rcases h with ⟨between, hbetween, hrest⟩ | ⟨between, hbetween, hrest⟩
  · obtain rfl := eq_nil_of_arrow_eq (fun hin => harrow (hbetween ▸ hin.trans
      (List.suffix_append _ _).isInfix)) hrest
    rw [hbetween, List.append_nil]
  · obtain rfl := eq_nil_of_arrow_eq (fun hin => harrow' (hbetween ▸ hin.trans
      (List.suffix_append _ _).isInfix)) hrest
    rw [hbetween, List.append_nil]

/-- A title with one arrow is that of one edge. -/
theorem ends_eq_of_no_arrow {source target : String} (hsource : ¬ ['-', '>'] <:+: source.toList)
    (htarget : ¬ ['-', '>'] <:+: target.toList) {e : String × String}
    (h : edgeTitle e = edgeTitle (source, target)) : e = (source, target) := by
  refine ends_eq_of_edgeTitle_eq h (fun hin => ?_) hsource
  obtain ⟨source', target'⟩ := e
  rw [edgeTitle_eq_iff, edgeTitle_eq_iff.1 rfl, List.append_eq_append_iff] at h
  -- An arrow in the source of `e` would be one in `source`, or behind the arrow of the title.
  rcases h with ⟨between, hbetween, hrest⟩ | ⟨between, hbetween, hrest⟩
  · rcases arrow_eq_cases hrest with rfl | ⟨between', rfl, hback⟩
    · rw [hbetween, List.append_nil] at hin
      exact hsource hin
    · exact htarget ⟨between', target'.toList, by rw [hback]; simp⟩
  · exact hsource (hbetween ▸ hin.trans (List.prefix_append _ _).isInfix)

namespace Index

/-! ## What a title finds -/

/-- A located edge has the title, and none that has it is located with a shorter source. -/
structure IsShortest (ix : Index) (title source target : String) : Prop where
  title_eq : edgeTitle (source, target) = title
  isSome : (ix.edge? source target).isSome
  length_le : ∀ source' target', edgeTitle (source', target') = title →
    (ix.edge? source' target').isSome → source.length ≤ source'.length

section Find

variable {ix : Index} {title source target source' target' : String} {s : Span}

theorem IsShortest.unique (h : ix.IsShortest title source target)
    (h' : ix.IsShortest title source' target') : (source, target) = (source', target') := by
  apply ends_eq_of_length_eq (h.title_eq.trans h'.title_eq.symm)
  exact Nat.le_antisymm (h.length_le _ _ h'.title_eq h'.isSome)
    (h'.length_le _ _ h.title_eq h.isSome)

/-- A title finds the node with this id, or else the edge that has it and the shortest source. -/
theorem element?_eq_some_iff : ix.element? title = some s ↔ ix.node? title = some s
    ∨ ix.node? title = none ∧ ∃ source target, ix.IsShortest title source target
      ∧ ix.edge? source target = some s := by
  have hordered := pairwise_arrowCuts title.toList
  rw [element?, Option.or_eq_some_iff, List.findSome?_eq_some_iff]
  refine or_congr_right (and_congr_right fun _ => ?_)
  constructor
  · rintro ⟨before, p, after, hcuts, hp, hbefore⟩
    rw [hcuts] at hordered
    refine ⟨.ofList p.1, .ofList p.2, ⟨?joined, hp ▸ rfl, ?shortest⟩, hp⟩
    case joined =>
      rw [← mem_arrowCuts_title, String.toList_ofList, String.toList_ofList, hcuts]
      exact List.mem_append_right _ List.mem_cons_self
    case shortest =>
      intro source' target' htitle' hsome
      rw [← mem_arrowCuts_title, hcuts, List.mem_append, List.mem_cons] at htitle'
      rw [String.length_ofList, ← String.length_toList]
      rcases htitle' with hmem | rfl | hmem
      · have hnone := hbefore _ hmem
        rw [String.ofList_toList, String.ofList_toList] at hnone
        rw [hnone] at hsome
        exact absurd hsome (by simp)
      · exact Nat.le_refl _
      · exact Nat.le_of_lt ((List.pairwise_cons.1 (List.pairwise_append.1 hordered).2.1).1 _ hmem)
  · rintro ⟨source, target, hshortest, hs⟩
    obtain ⟨before, after, hcuts⟩ := List.append_of_mem (mem_arrowCuts_title.2 hshortest.title_eq)
    rw [hcuts] at hordered
    refine ⟨before, _, after, hcuts, by simpa using hs, fun q hq => ?_⟩
    have hlt : q.1.length < source.toList.length :=
      (List.pairwise_append.1 hordered).2.2 q hq _ List.mem_cons_self
    by_contra hlocated
    have hle := hshortest.length_le (.ofList q.1) (.ofList q.2) (by
      rw [← mem_arrowCuts_title, String.toList_ofList, String.toList_ofList, hcuts]
      exact List.mem_append_left _ hq) (Option.isSome_iff_ne_none.2 hlocated)
    rw [String.length_ofList, ← String.length_toList] at hle
    exact absurd hlt (Nat.not_lt.2 hle)

theorem element?_eq_none_iff : ix.element? title = none ↔ ix.node? title = none
    ∧ ∀ source target, edgeTitle (source, target) = title → ix.edge? source target = none := by
  rw [element?, Option.or_eq_none_iff, List.findSome?_eq_none_iff]
  refine and_congr_right fun _ => ?_
  constructor
  · intro h source target htitle
    simpa using h _ (mem_arrowCuts_title.2 htitle)
  · intro h p hp
    apply h
    rwa [← mem_arrowCuts_title, String.toList_ofList, String.toList_ofList]

theorem element?_edgeTitle_of_no_arrow
    (hid : ∀ id, (ix.node? id).isSome → ¬ ['-', '>'] <:+: id.toList)
    (hsource : ¬ ['-', '>'] <:+: source.toList) (htarget : ¬ ['-', '>'] <:+: target.toList) :
    ix.element? (edgeTitle (source, target)) = ix.edge? source target := by
  have hnode : ix.node? (edgeTitle (source, target)) = none := by
    by_contra hlocated
    refine hid _ (Option.isSome_iff_ne_none.2 hlocated) ⟨source.toList, target.toList, ?_⟩
    rw [edgeTitle_eq_iff.1 rfl]
    simp
  cases hs : ix.edge? source target with
  | none =>
    refine element?_eq_none_iff.2 ⟨hnode, fun source' target' htitle => ?_⟩
    obtain ⟨rfl, rfl⟩ := Prod.mk.inj (ends_eq_of_no_arrow hsource htarget htitle)
    exact hs
  | some s =>
    refine element?_eq_some_iff.2 (.inr ⟨hnode, source, target, ⟨rfl, hs ▸ rfl, ?_⟩, hs⟩)
    intro source' target' htitle _
    obtain ⟨rfl, rfl⟩ := Prod.mk.inj (ends_eq_of_no_arrow hsource htarget htitle)
    exact Nat.le_refl _

end Find

/-- **What a title finds**, in every index. A node is found by its id. Any other title finds the
located edge that has it and the shortest source, and there is at most one. Nothing is found exactly
if nothing with the title is located, so the title of a located edge always finds something. If no
located node has an arrow in its id, then edges between ids without arrows are found by their
titles. -/
theorem element?_resolves (ix : Index) :
    (∀ title s, ix.node? title = some s → ix.element? title = some s)
    ∧ (∀ title, ix.node? title = none → ∀ s, ix.element? title = some s
        ↔ ∃ source target, ix.IsShortest title source target ∧ ix.edge? source target = some s)
    ∧ (∀ title source target source' target', ix.IsShortest title source target →
        ix.IsShortest title source' target' → source = source' ∧ target = target')
    ∧ (∀ title, ix.element? title = none ↔ ix.node? title = none
        ∧ ∀ source target, edgeTitle (source, target) = title → ix.edge? source target = none)
    ∧ (∀ source target, (ix.edge? source target).isSome →
        (ix.element? (edgeTitle (source, target))).isSome)
    ∧ ((∀ id, (ix.node? id).isSome → ¬ ['-', '>'] <:+: id.toList) →
        ∀ source target, ¬ ['-', '>'] <:+: source.toList → ¬ ['-', '>'] <:+: target.toList →
          ix.element? (edgeTitle (source, target)) = ix.edge? source target) := by
  refine ⟨?node, ?edge, ?unique, fun _ => element?_eq_none_iff, ?found, ?clear⟩
  case node => exact fun title s hs => element?_eq_some_iff.2 (.inl hs)
  case edge =>
    intro title hnode s
    rw [element?_eq_some_iff, hnode]
    simp
  case unique => exact fun _ _ _ _ _ h h' => Prod.mk.inj (h.unique h')
  case found =>
    intro source target hsome
    refine Option.isSome_iff_ne_none.2 fun hnone => ?_
    rw [(element?_eq_none_iff.1 hnone).2 source target rfl] at hsome
    exact absurd hsome (by simp)
  case clear => exact fun hid _ _ hsource htarget =>
    element?_edgeTitle_of_no_arrow hid hsource htarget

/-- Ids that start with the end of an arrow, or end with its start, do not matter, and a source can
be empty. -/
example :
    let ix : Index := ⟨[("a->b", ⟨0, 0, 7⟩)], [(("a", "b"), ⟨1, 0, 3⟩), (("a-", ">b"), ⟨2, 0, 4⟩),
      (("", ">->b"), ⟨3, 0, 1⟩), (("->>", "b"), ⟨4, 0, 5⟩)], []⟩
    ix.element? "a->b" = some ⟨0, 0, 7⟩ ∧ ix.element? "a-->>b" = some ⟨2, 0, 4⟩
      ∧ ix.element? "->>->b" = some ⟨3, 0, 1⟩ ∧ ix.element? "b->a" = none := by decide +kernel

/-! ## Titles that tell elements apart -/

/-- No two located edges have one title, and no located node has the title of one. -/
structure HasClearTitles (ix : Index) : Prop where
  nodup : (ix.edges.map fun e => edgeTitle e.1).Nodup
  node?_eq_none : ∀ e ∈ ix.edges, ix.node? (edgeTitle e.1) = none

theorem mem_edges_of_edge? {ix : Index} {source target : String} {s : Span}
    (h : ix.edge? source target = some s) : ((source, target), s) ∈ ix.edges := by
  obtain ⟨before, after, hedges, -⟩ := List.lookup_eq_some_iff.1 h
  rw [hedges]
  exact List.mem_append_right _ List.mem_cons_self

theorem HasClearTitles.element?_edgeTitle {ix : Index} (h : ix.HasClearTitles)
    {source target : String} {s : Span} (hs : ix.edge? source target = some s) :
    ix.element? (edgeTitle (source, target)) = some s := by
  have hmem := mem_edges_of_edge? hs
  refine element?_eq_some_iff.2 (.inr ⟨h.node?_eq_none _ hmem, source, target,
    ⟨rfl, hs ▸ rfl, fun source' target' htitle hsome => ?_⟩, hs⟩)
  obtain ⟨s', hs'⟩ := Option.isSome_iff_exists.1 hsome
  have heq := List.inj_on_of_nodup_map h.nodup (mem_edges_of_edge? hs') hmem htitle
  obtain ⟨⟨rfl, -⟩, -⟩ := Prod.mk.inj heq
  exact Nat.le_refl _

variable {text : List Char} {d : Document}

theorem nodup_edges_build : (build text d).edges.Nodup := by
  refine (nodup_distinct _).filterMap fun e e' x hx hx' => ?_
  obtain ⟨s, -, rfl⟩ := Option.map_eq_some_iff.1 hx
  obtain ⟨s', -, heq⟩ := Option.map_eq_some_iff.1 hx'
  exact (Prod.mk.inj heq).1.symm

/-- If every located edge is found by its title, titles are clear. -/
theorem hasClearTitles_of_element? (h : ∀ e ∈ (build text d).edges,
    (build text d).element? (edgeTitle e.1) = some e.2) : (build text d).HasClearTitles := by
  constructor
  case nodup =>
    refine nodup_edges_build.map_on fun e he e' he' htitle => ?_
    obtain ⟨⟨source, target⟩, s⟩ := e
    obtain ⟨⟨source', target'⟩, s'⟩ := e'
    -- Both are found by the title, so they stand in one block.
    obtain rfl : s = s' := by
      have hs := h _ he
      rw [htitle, h _ he'] at hs
      exact (Option.some.inj hs).symm
    obtain rfl := eq_of_inBlock (inBlock_of_mem_edges he) (inBlock_of_mem_edges he')
    rw [source_eq_of_edgeTitle_eq htitle]
  case node?_eq_none =>
    refine fun e he => Option.eq_none_iff_forall_ne_some.2 fun s hs => ?_
    have hfound := h e he
    rw [element?_eq_some_iff.2 (.inl hs)] at hfound
    obtain rfl := Option.some.inj hfound
    rw [node?, nodes_build, lookup_filterMap_eq_some_iff, ← nodes_build] at hs
    obtain ⟨-, k, -, hdecl⟩ := mem_nodes_build.1 hs
    refine Span.not_apart_self ?_ (apart_of_mem hs he)
    rw [← hdecl]
    exact Nat.succ_pos _

/-- Titles are clear if no id of the document has an arrow. -/
theorem hasClearTitles_of_no_arrow (hrefers : ∀ n ∈ d.nodes, ∀ p ∈ n.predecessors, p ∈ d.nodeIds)
    (harrow : ∀ id ∈ d.nodeIds, ¬ ['-', '>'] <:+: id.toList) :
    (build text d).HasClearTitles := by
  have hsource (e : (String × String) × Span) (he : e ∈ (build text d).edges) :
      ¬ ['-', '>'] <:+: e.1.1.toList := by
    obtain ⟨hedge, -⟩ := mem_edges_build.1 he
    obtain ⟨n, hn, -, hp⟩ := mem_documentEdges.1 hedge
    exact harrow _ (hrefers n hn _ hp)
  constructor
  case nodup =>
    refine nodup_edges_build.map_on fun e he e' he' htitle => ?_
    have hends := ends_eq_of_edgeTitle_eq htitle (hsource e he) (hsource e' he')
    have hspan := mem_filterMap_keys.1 he
    rw [hends, (mem_filterMap_keys.1 he').2] at hspan
    exact Prod.ext hends (Option.some.inj hspan.2).symm
  case node?_eq_none =>
    intro e _
    rw [node?_build, if_neg]
    intro hid
    exact harrow _ hid ⟨_, _, (List.append_assoc _ _ _).trans (edgeTitle_eq_iff.1 rfl).symm⟩

end Index

/-! ## The table of titles -/

/-- The table has as many entries as there are located edges, and the title of an edge has the
offsets of its span. -/
structure Offsets.ListsEdges (o : Offsets) (ix : Index) (g : Graph) (text : List Char) : Prop where
  length_eq : o.edges.length = ix.edges.length
  lookup_title : ∀ e ∈ g.edges, ∀ s, ix.edge? e.source e.target = some s →
    ∃ p, unitOffsets text s = .ok p ∧ o.edges.lookup e.title = some p

theorem Offsets.listsEdges_iff {text : List Char} {d : Document} {o : Offsets}
    (ho : (Index.build text d).offsets text = .ok o) (g : Graph) :
    o.ListsEdges (Index.build text d) g text
      ↔ ((Index.build text d).edges.map fun e => edgeTitle e.1).Nodup := by
  have hlength := congrArg List.length (Index.map_fst_offsets ho)
  rw [List.length_map] at hlength
  constructor
  · intro h
    rw [← length_distinct_eq_iff, ← hlength, h.length_eq, List.length_map]
  · intro hnodup
    refine ⟨?_, fun e _ s hs => ?_⟩
    · rw [hlength, distinct_of_nodup hnodup, List.length_map]
    · obtain ⟨piece, -, hcovers⟩ := Index.covers_of_edge? hs
      refine ⟨_, unitOffsets_eq_ok hcovers.isWithin rfl, ?_⟩
      obtain ⟨before, after, hedges⟩ := List.append_of_mem (Index.mem_edges_of_edge? hs)
      rw [hedges, List.map_append, List.map_cons] at hnodup
      have hlater := (List.nodup_cons.1 (List.nodup_append.1 hnodup).2.1).1
      exact Index.lookup_offsets_of_last ho hedges fun e' he' heq =>
        hlater (heq ▸ List.mem_map_of_mem he')

end Location

open Location (Index edgeTitle)

/-- **When titles tell the located elements of a compiled document apart**, whatever the text. The
title of a node always finds the node. The titles of edges find the edges exactly if titles are
clear, and the table of offsets has all located edges exactly if their titles are distinct. If no
id has an arrow, titles are clear. -/
theorem Document.compile_titles {registry : Registry} {theme : Option String} {d : Document}
    {g : Graph} (text : List Char) (h : d.compile registry theme = .ok g) :
    let ix := Index.build text d
    (∀ n ∈ g.nodes, ∀ s, ix.node? n.id = some s → ix.element? n.id = some s)
    ∧ ((∀ e ∈ g.edges, ∀ s, ix.edge? e.source e.target = some s → ix.element? e.title = some s)
        ↔ ix.HasClearTitles)
    ∧ (∃ o, ix.offsets text = .ok o
        ∧ (o.ListsEdges ix g text ↔ (ix.edges.map fun e => edgeTitle e.1).Nodup))
    ∧ ((∀ id ∈ d.nodeIds, ¬ ['-', '>'] <:+: id.toList) → ix.HasClearTitles) := by
  intro ix
  obtain ⟨⟨-, hrefers⟩, rfl⟩ := compile_eq_ok_iff.1 h
  refine ⟨fun n _ s hs => Index.element?_eq_some_iff.2 (.inl hs), ⟨fun hfound => ?_, ?_⟩,
    ⟨_, Index.offsets_build text d, Location.Offsets.listsEdges_iff (Index.offsets_build text d) _⟩,
    Index.hasClearTitles_of_no_arrow hrefers⟩
  · refine Index.hasClearTitles_of_element? fun e he => ?_
    obtain ⟨hedge, -⟩ := Index.mem_edges_build.1 he
    obtain ⟨k, hk, hsource, htarget⟩ := Graph.exists_edge_iff.2 (Index.mem_documentEdges.1 hedge)
    have hspan : ix.edge? e.1.1 e.1.2 = some e.2 := Index.lookup_filterMap_eq_some_iff.2 he
    rw [← hsource, ← htarget] at hspan
    have htitle := hfound k hk e.2 hspan
    rw [GraphEdge.title, hsource, htarget] at htitle
    exact htitle
  · exact fun hclear e _ s hs => hclear.element?_edgeTitle hs

/-- A document with an arrow in an id. -/
def Document.pointed : Document where
  title := "Attack Tree"
  theme := none
  facts := [⟨"door", "D", .fact, [], [], [], by decide⟩,
    ⟨"in->out", "I", .fact, [], [], [], by decide⟩]
  attacks := [⟨"room", "R", .attack, ["door", "in->out"], [], [], by decide⟩]
  mitigations := []
  goals := []

theorem Document.pointed_compile_titles :
    let text := "facts:\n- door: D\n- in->out: I\nattacks:\n- room: R\n  from:\n  - door\n"
      ++ "  - in->out\n"
    let ix := Index.build text.toList pointed
    ofText text = .ok pointed ∧ ∃ g, pointed.compile .builtin none = .ok g
      ∧ ix.edges = [(("door", "room"), ⟨6, 2, 6⟩), (("in->out", "room"), ⟨7, 2, 9⟩)]
      ∧ (∀ e ∈ g.edges, ∀ s, ix.edge? e.source e.target = some s → ix.element? e.title = some s)
      ∧ ∃ o, ix.offsets text.toList = .ok o ∧ o.ListsEdges ix g text.toList := by
  intro text ix
  have hcompile : pointed.compile .builtin none
      = .ok (Graph.draw "Attack Tree" (Registry.builtin.resolve none) pointed.nodes) :=
    compile_eq_ok_iff.2 ⟨⟨by decide, by unfold Graph.Refers; decide⟩, rfl⟩
  have hclear : ix.HasClearTitles := ⟨by decide +kernel, by decide +kernel⟩
  obtain ⟨-, hfound, ⟨o, ho, hlists⟩, -⟩ := compile_titles text.toList hcompile
  exact ⟨by decide +kernel, _, hcompile, by decide +kernel, hfound.2 hclear, o, ho,
    hlists.2 hclear.nodup⟩

/-- A document with two edges of one title. -/
def Document.crossing : Document where
  title := "Attack Tree"
  theme := none
  facts := [⟨"p", "P", .fact, [], [], [], by decide⟩, ⟨"p->q", "PQ", .fact, [], [], [], by decide⟩]
  attacks := [⟨"q->r", "QR", .attack, ["p"], [], [], by decide⟩,
    ⟨"r", "R", .attack, ["p->q"], [], [], by decide⟩]
  mitigations := []
  goals := []

/-- One of the edges is not found by its title, and the other one is not in the table. -/
theorem Document.crossing_titles :
    let text := "facts:\n- p: P\n- p->q: PQ\nattacks:\n- q->r: QR\n  from:\n  - p\n"
      ++ "- r: R\n  from:\n  - p->q\n"
    let ix := Index.build text.toList crossing
    ofText text = .ok crossing ∧ ∃ g, crossing.compile .builtin none = .ok g
      ∧ (∃ e ∈ g.edges, ix.edge? e.source e.target = some ⟨9, 2, 6⟩
        ∧ ix.element? e.title = some ⟨6, 2, 3⟩)
      ∧ ix.edges.length = 2 ∧ ∃ o, ix.offsets text.toList = .ok o
        ∧ o.edges = [("p->q->r", 76, 82)] := by
  have hcompile : crossing.compile .builtin none
      = .ok (Graph.draw "Attack Tree" (Registry.builtin.resolve none) crossing.nodes) :=
    compile_eq_ok_iff.2 ⟨⟨by decide, by unfold Graph.Refers; decide⟩, rfl⟩
  exact ⟨by decide +kernel, _, hcompile, by decide +kernel, by decide +kernel, _,
    Index.offsets_build _ _, by decide +kernel⟩

end ThreatTree
