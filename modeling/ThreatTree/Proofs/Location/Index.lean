import ThreatTree.Proofs.Location.Reference

/-!
# What the index records

A node of the document is located at its declaration if its id has a header (`node?_build`),
and an edge where the block of its target refers to its source (`edge?_build`). What is
recorded is right: every span stands in one line and covers what it is the place of
(`build_sound`).
-/

namespace ThreatTree.Location.Index

/-! ## The tables -/

/-- The table of the values of a function finds the value at a key that it was made from. -/
theorem lookup_filterMap {α β : Type} [BEq α] [LawfulBEq α] (f : α → Option β) (keys : List α)
    (a : α) :
    (keys.filterMap fun x => (f x).map (x, ·)).lookup a = if a ∈ keys then f a else none := by
  induction keys with
  | nil => rfl
  | cons x keys ih =>
    rw [List.filterMap_cons]
    by_cases hax : a = x
    · subst hax
      cases hf : f a with
      | none => simp [ih, hf]
      | some b => simp
    · cases hf : f x with
      | none => simp [ih, hax]
      | some b =>
        rw [Option.map_some, List.lookup_cons, beq_false_of_ne hax]
        simp [ih, hax]

theorem mem_filterMap_keys {α β : Type} {f : α → Option β} {keys : List α} {a : α} {b : β} :
    (a, b) ∈ keys.filterMap (fun x => (f x).map (x, ·)) ↔ a ∈ keys ∧ f a = some b := by
  simp only [List.mem_filterMap, Option.map_eq_some_iff, Prod.mk.injEq]
  constructor
  · rintro ⟨x, hx, b', hf, rfl, rfl⟩
    exact ⟨hx, hf⟩
  · rintro ⟨ha, hf⟩
    exact ⟨a, ha, b, hf, rfl, rfl⟩

theorem lookup_filterMap_eq_some_iff {α β : Type} [BEq α] [LawfulBEq α] {f : α → Option β}
    {keys : List α} {a : α} {b : β} :
    (keys.filterMap fun x => (f x).map (x, ·)).lookup a = some b
      ↔ (a, b) ∈ keys.filterMap fun x => (f x).map (x, ·) := by
  rw [lookup_filterMap, mem_filterMap_keys]
  split <;> simp [*]

variable (text : List Char) (d : Document)

theorem nodes_build :
    (build text d).nodes = (distinct d.nodeIds).filterMap fun id =>
      ((header? (headers (Text.lines text)) id).map declaration).map (id, ·) := by
  simp only [build, Option.map_map]
  rfl

theorem node?_build (id : String) :
    (build text d).node? id = if id ∈ d.nodeIds then
      (header? (headers (Text.lines text)) id).map declaration else none := by
  rw [node?, nodes_build, lookup_filterMap]
  simp only [mem_distinct]

theorem edge?_build (source target : String) :
    (build text d).edge? source target = if (source, target) ∈ documentEdges d then
      edgeSpan? (Text.lines text) (headers (Text.lines text)) (source, target) else none :=
  lookup_filterMap _ _ _

theorem mem_documentEdges {d : Document} {source target : String} :
    (source, target) ∈ documentEdges d ↔
      ∃ n ∈ d.nodes, n.id = target ∧ source ∈ n.predecessors := by
  simp only [documentEdges, mem_distinct, List.mem_flatMap, List.mem_map, Prod.mk.injEq]
  constructor
  · rintro ⟨n, hn, p, hp, rfl, rfl⟩
    exact ⟨n, hn, rfl, hp⟩
  · rintro ⟨n, hn, rfl, hp⟩
    exact ⟨n, hn, source, hp, rfl, rfl⟩

/-! ## Declarations -/

/-- The header with an id that is taken is the first one. -/
theorem header?_first {lines : List (List Char)} {id : String} {h : Header}
    (hh : header? (headers lines) id = some h) :
    h ∈ headers lines ∧ h.id = id
      ∧ ∀ h' ∈ headers lines, h'.id = id → h.line ≤ h'.line := by
  refine ⟨List.mem_of_find?_eq_some hh, by simpa using List.find?_some hh, fun h' hmem hid => ?_⟩
  obtain ⟨-, before, after, heq, hbefore⟩ := List.find?_eq_some_iff_append.1 hh
  have hsorted := pairwise_line_headers lines
  rw [heq] at hmem hsorted
  rcases List.mem_append.1 hmem with hmem | hmem
  · exact absurd (hbefore h' hmem) (by simp [hid])
  · rcases List.mem_cons.1 hmem with rfl | hmem
    · exact Nat.le_refl _
    · have hlater := (List.pairwise_cons.1 (List.pairwise_append.1 hsorted).2.1).1
      exact Nat.le_of_lt (hlater h' hmem)

theorem isSome_header?_iff {hs : List Header} {id : String} :
    (header? hs id).isSome ↔ ∃ h ∈ hs, h.id = id := by
  simp [header?]

/-- A header is found by its id if ids are distinct. -/
theorem header?_of_nodup {hs : List Header} (hnodup : (hs.map (·.id)).Nodup) {h : Header}
    (hmem : h ∈ hs) : header? hs h.id = some h := by
  induction hs with
  | nil => simp at hmem
  | cons k hs ih =>
    rw [List.map_cons, List.nodup_cons] at hnodup
    rcases List.mem_cons.1 hmem with rfl | hmem
    · simp [header?]
    · have hne : k.id ≠ h.id := fun heq =>
        hnodup.1 (heq ▸ List.mem_map_of_mem hmem)
      rw [header?, List.find?_cons_of_neg (by simpa using hne)]
      exact ih hnodup.2 hmem

/-- What the span of a declaration covers. -/
def declarationText (id : String) : List Char := ['-', ' '] ++ id.toList ++ [':']

theorem covers_declaration {lines : List (List Char)} {h : Header} (hh : h ∈ headers lines) :
    (declaration h).Covers lines (declarationText h.id) := by
  obtain ⟨line, rest, hline, hkey⟩ := exists_of_mem_headers hh
  obtain ⟨margin, hparts, hindent, -⟩ := itemKey?_eq_some_iff.1 hkey
  refine ⟨margin, rest, ?_, hindent, ?_⟩
  · rw [declaration, hline, hparts, declarationText]
    simp
  · simp [declaration, declarationText, String.length_toList]

/-! ## Soundness -/

/-- All spans that are recorded. -/
def spans (ix : Index) : List Span := ix.nodes.map (·.2) ++ ix.edges.map (·.2)

theorem covers_of_mem_nodes {id : String} {s : Span} (h : (id, s) ∈ (build text d).nodes) :
    id ∈ d.nodeIds ∧ ∃ h, header? (headers (Text.lines text)) id = some h ∧ s = declaration h
      ∧ s.Covers (Text.lines text) (declarationText id) := by
  rw [nodes_build, mem_filterMap_keys, mem_distinct] at h
  obtain ⟨hid, hdecl⟩ := h
  obtain ⟨h, hh, rfl⟩ := Option.map_eq_some_iff.1 hdecl
  obtain ⟨hmem, rfl, -⟩ := header?_first hh
  exact ⟨hid, h, hh, rfl, covers_declaration hmem⟩

theorem covers_of_mem_edges {source target : String} {s : Span}
    (h : ((source, target), s) ∈ (build text d).edges) :
    (∃ n ∈ d.nodes, n.id = target ∧ source ∈ n.predecessors)
      ∧ (header? (headers (Text.lines text)) target).isSome
      ∧ ∃ piece ∈ referenceTexts source.toList, s.Covers (Text.lines text) piece := by
  obtain ⟨hedge, hspan⟩ := mem_filterMap_keys.1 h
  obtain ⟨h, hh, href⟩ := Option.bind_eq_some_iff.1 hspan
  exact ⟨mem_documentEdges.1 hedge, Option.isSome_iff_exists.2 ⟨h, hh⟩,
    covers_of_reference? href⟩

/-! ## What is looked up -/

variable {text d}

theorem covers_of_node? {id : String} {s : Span} (h : (build text d).node? id = some s) :
    s.Covers (Text.lines text) (declarationText id) := by
  rw [node?_build] at h
  split at h
  · obtain ⟨k, hk, rfl⟩ := Option.map_eq_some_iff.1 h
    obtain ⟨hmem, rfl, -⟩ := header?_first hk
    exact covers_declaration hmem
  · exact absurd h (by simp)

theorem covers_of_edge? {source target : String} {s : Span}
    (h : (build text d).edge? source target = some s) :
    ∃ piece ∈ referenceTexts source.toList, s.Covers (Text.lines text) piece := by
  rw [edge?_build] at h
  split at h
  · obtain ⟨k, -, href⟩ := Option.bind_eq_some_iff.1 h
    exact covers_of_reference? href
  · exact absurd h (by simp)

/-- A drawn element that is found has its span in the text. -/
theorem covers_of_element? {title : String} {s : Span}
    (h : (build text d).element? title = some s) : ∃ piece, s.Covers (Text.lines text) piece := by
  rw [element?, Option.or_eq_some_iff] at h
  rcases h with hnode | ⟨-, hedge⟩
  · exact ⟨_, covers_of_node? hnode⟩
  · obtain ⟨p, -, hp⟩ := List.exists_of_findSome?_eq_some hedge
    obtain ⟨piece, -, hcovers⟩ := covers_of_edge? hp
    exact ⟨piece, hcovers⟩

/-! ## Everything that is recorded -/

/-- **What the index records is right**, for any text and any document. A node has a span
exactly if the document declares it and some header has its id; the span is that of the first
such header and covers the declaration. The span of an edge belongs to a located node and one
of its predecessors, and covers one of the ways to write a reference to the predecessor. Every
span stands in one line. -/
theorem build_sound (text : List Char) (d : Document) :
    let ix := build text d
    let lines := Text.lines text
    (∀ id, (ix.node? id).isSome ↔ id ∈ d.nodeIds ∧ ∃ h ∈ headers lines, h.id = id)
    ∧ (∀ id s, ix.node? id = some s →
        (∃ h ∈ headers lines, h.id = id ∧ s.line = h.line
          ∧ ∀ h' ∈ headers lines, h'.id = id → h.line ≤ h'.line)
        ∧ s.excerpt text = .ok (['-', ' '] ++ id.toList ++ [':']))
    ∧ (∀ source target s, ((source, target), s) ∈ ix.edges →
        target ∈ d.nodeIds ∧ (ix.node? target).isSome
        ∧ (∃ n ∈ d.nodes, n.id = target ∧ source ∈ n.predecessors)
        ∧ ∃ piece ∈ referenceTexts source.toList, s.excerpt text = .ok piece)
    ∧ ∀ s ∈ ix.spans, ∃ line, lines[s.line]? = some line ∧ s.column + s.length ≤ line.length := by
  intro ix lines
  have hnode : ∀ id, (ix.node? id).isSome ↔ id ∈ d.nodeIds ∧ ∃ h ∈ headers lines, h.id = id := by
    intro id
    rw [node?_build, ← isSome_header?_iff]
    split <;> simp [*, lines]
  refine ⟨hnode, fun id s hs => ?_, fun source target s hs => ?_, fun s hs => ?_⟩
  · rw [node?_build] at hs
    split at hs
    · obtain ⟨h, hh, rfl⟩ := Option.map_eq_some_iff.1 hs
      obtain ⟨hmem, rfl, hfirst⟩ := header?_first hh
      exact ⟨⟨h, hmem, rfl, rfl, hfirst⟩, (covers_declaration hmem).excerpt⟩
    · exact absurd hs (by simp)
  · obtain ⟨⟨n, hn, hid, hp⟩, hheader, piece, hpiece, hcovers⟩ := covers_of_mem_edges text d hs
    have htarget : target ∈ d.nodeIds := hid ▸ List.mem_map_of_mem hn
    exact ⟨htarget, (hnode target).2 ⟨htarget, isSome_header?_iff.1 hheader⟩,
      ⟨n, hn, hid, hp⟩, piece, hpiece, hcovers.excerpt⟩
  · rcases List.mem_append.1 hs with hs | hs
    · obtain ⟨⟨id, s⟩, hmem, rfl⟩ := List.mem_map.1 hs
      obtain ⟨-, h, -, -, hcovers⟩ := covers_of_mem_nodes text d hmem
      exact hcovers.isWithin
    · obtain ⟨⟨⟨source, target⟩, s⟩, hmem, rfl⟩ := List.mem_map.1 hs
      obtain ⟨-, -, piece, -, hcovers⟩ := covers_of_mem_edges text d hmem
      exact hcovers.isWithin

end ThreatTree.Location.Index
