import Mathlib.Data.List.Nodup
import ThreatTree.Proofs.Location.Index

/-!
# Blocks share out the lines

A block goes from its header to the first line that ends it (`IsBlock`). It holds no other header,
so two blocks have no line in common: the one that starts first ends in front of the other
(`IsBlock.disjoint`). A reference is found on a line of the block of its target
(`line_of_reference?`), and on the line of the header only behind the declaration
(`Index.apart_of_mem`).

The main statement, `build_isPartition`, says that the index of a document in a text keeps to the
blocks, whatever the text and the document: what stands on a line belongs to the block that has the
line.
-/

namespace ThreatTree

/-- Two spans have no character in common. -/
def Span.Apart (s t : Span) : Prop :=
  s.line ≠ t.line ∨ s.column + s.length ≤ t.column ∨ t.column + t.length ≤ s.column

theorem Span.apart_comm {s t : Span} : s.Apart t ↔ t.Apart s := by
  unfold Span.Apart
  omega

theorem Span.not_apart_self {s : Span} (h : 0 < s.length) : ¬ s.Apart s := by
  unfold Span.Apart
  omega

namespace Location

/-! ## Where a block ends -/

/-- The lines from a header to the line in front of `last` are its block. Behind the header there is
no other header, no key at the left margin and no list item that is indented less, and the block
goes on as far as this allows. -/
structure IsBlock (lines : List (List Char)) (h : Header) (last : Nat) : Prop where
  line_lt : h.line < last
  le_length : last ≤ lines.length
  le_line : ∀ k ∈ headers lines, h.line < k.line → last ≤ k.line
  isTopLevelKey_eq : ∀ i line, h.line < i → i < last → lines[i]? = some line →
    isTopLevelKey line = false
  isOuterItem_eq : ∀ i line, h.line < i → i < last → lines[i]? = some line →
    isOuterItem h.indent line = false
  ends : ∀ line, lines[last]? = some line → (∃ k ∈ headers lines, k.line = last)
    ∨ isTopLevelKey line = true ∨ isOuterItem h.indent line = true

section Length

variable (isHeader : Nat → Bool) (indent : Nat)

theorem blockLength_le (i : Nat) (lines : List (List Char)) :
    blockLength isHeader indent i lines ≤ lines.length := by
  induction lines generalizing i with
  | nil => exact Nat.le_refl 0
  | cons line rest ih =>
    rw [blockLength, List.length_cons]
    split
    · exact Nat.zero_le _
    · exact Nat.succ_le_succ (ih (i + 1))

/-- No line in front of the end of a block ends it. -/
theorem not_ends_of_lt_blockLength {i j : Nat} {lines : List (List Char)} {line : List Char}
    (hj : j < blockLength isHeader indent i lines) (hline : lines[j]? = some line) :
    isHeader (i + j) = false ∧ isTopLevelKey line = false ∧ isOuterItem indent line = false := by
  induction lines generalizing i j with
  | nil => exact absurd hj (Nat.not_lt_zero j)
  | cons l rest ih =>
    rw [blockLength] at hj
    split at hj
    · exact absurd hj (Nat.not_lt_zero j)
    · next hgoes =>
      cases j with
      | zero =>
        obtain rfl : l = line := by simpa using hline
        simpa [and_assoc] using hgoes
      | succ j =>
        rw [← Nat.add_assoc, Nat.add_right_comm]
        exact ih (Nat.lt_of_succ_lt_succ hj) (by simpa using hline)

/-- The line behind the end of a block ends it. -/
theorem ends_of_blockLength {i : Nat} {lines : List (List Char)} {line : List Char}
    (hline : lines[blockLength isHeader indent i lines]? = some line) :
    isHeader (i + blockLength isHeader indent i lines) = true ∨ isTopLevelKey line = true
      ∨ isOuterItem indent line = true := by
  induction lines generalizing i with
  | nil => exact absurd hline (by simp)
  | cons l rest ih =>
    rw [blockLength] at hline ⊢
    split at hline
    · next hends =>
      obtain rfl : l = line := by simpa using hline
      rw [if_pos hends]
      simpa [or_assoc] using hends
    · next hgoes =>
      rw [if_neg hgoes, ← Nat.add_assoc, Nat.add_right_comm]
      exact ih (by simpa using hline)

end Length

variable {lines : List (List Char)}

theorem line_lt_length {h : Header} (hh : h ∈ headers lines) : h.line < lines.length := by
  obtain ⟨line, -, hline, -⟩ := exists_of_mem_headers hh
  exact (List.getElem?_eq_some_iff.1 hline).1

theorem eq_of_line_eq {h h' : Header} (hh : h ∈ headers lines) (hh' : h' ∈ headers lines)
    (heq : h.line = h'.line) : h = h' :=
  List.inj_on_of_nodup_map
    (List.pairwise_map.2 ((pairwise_line_headers lines).imp Nat.ne_of_lt)) hh hh' heq

theorem isBlock_blockEnd {h : Header} (hh : h ∈ headers lines) :
    IsBlock lines h (blockEnd lines (headers lines) h) := by
  have hline := line_lt_length hh
  have hlength := blockLength_le (fun i => (headers lines).any fun k => k.line = i) h.indent
    (h.line + 1) (lines.drop (h.line + 1))
  rw [List.length_drop] at hlength
  -- A line behind the header, counted from the header, and whether it ends the block.
  have hgoes (i : Nat) (line : List Char) (hi : h.line < i)
      (hlast : i < blockEnd lines (headers lines) h) (hget : lines[i]? = some line) :
      ((headers lines).any fun k => k.line = i) = false ∧ isTopLevelKey line = false
        ∧ isOuterItem h.indent line = false := by
    obtain ⟨j, rfl⟩ := Nat.exists_eq_add_of_le hi
    rw [← List.getElem?_drop] at hget
    exact not_ends_of_lt_blockLength _ _ (Nat.add_lt_add_iff_left.1 hlast) hget
  constructor
  case line_lt => unfold blockEnd; omega
  case le_length => unfold blockEnd; omega
  case le_line =>
    intro k hk hlt
    refine Nat.not_lt.1 fun hlast => ?_
    obtain ⟨line, -, hget, -⟩ := exists_of_mem_headers hk
    have hheader := (hgoes k.line line hlt hlast hget).1
    rw [List.any_eq_false] at hheader
    exact hheader k hk (decide_eq_true rfl)
  case isTopLevelKey_eq => exact fun i line hi hlast hget => (hgoes i line hi hlast hget).2.1
  case isOuterItem_eq => exact fun i line hi hlast hget => (hgoes i line hi hlast hget).2.2
  case ends =>
    intro line hget
    rw [blockEnd, ← List.getElem?_drop] at hget
    refine (ends_of_blockLength _ _ hget).imp_left fun hheader => ?_
    obtain ⟨k, hk, heq⟩ := List.any_eq_true.1 hheader
    exact ⟨k, hk, of_decide_eq_true heq⟩

/-- The blocks of two headers have no line in common. -/
theorem IsBlock.disjoint {h h' : Header} {last last' i : Nat} (hb : IsBlock lines h last)
    (hb' : IsBlock lines h' last') (hh : h ∈ headers lines) (hh' : h' ∈ headers lines)
    (hi : h.line ≤ i ∧ i < last) (hi' : h'.line ≤ i ∧ i < last') : h.line = h'.line := by
  rcases Nat.lt_trichotomy h.line h'.line with hlt | heq | hlt
  · have hle := hb.le_line h' hh' hlt
    omega
  · exact heq
  · have hle := hb'.le_line h hh hlt
    omega

/-! ## Where references stand -/

/-- A reference in the record of a header stands behind the declaration. -/
theorem column_of_recordReference? {h : Header} (hh : h ∈ headers lines) {id line : List Char}
    {s : Span} (hline : lines[h.line]? = some line) (hs : recordReference? id h line = some s) :
    s.line = h.line ∧ h.indent + (h.id.length + 3) ≤ s.column := by
  obtain ⟨line', after, hget, hkey⟩ := exists_of_mem_headers hh
  obtain rfl : line' = line := Option.some.inj (hget.symm.trans hline)
  obtain ⟨k, column, hk, hcolumn, rfl⟩ := exists_of_recordReference? hs
  obtain rfl := Option.some.inj (hkey.symm.trans hk)
  obtain ⟨margin, rfl, hmargin, -⟩ := itemKey?_eq_some_iff.1 hkey
  have hmargin : margin.length = h.indent := hmargin
  obtain ⟨before, -, -, rfl, -⟩ := exists_of_bracketReference? hcolumn
  refine ⟨rfl, ?_⟩
  have hid : h.id.toList.length = h.id.length := String.length_toList
  simp only [List.length_append, List.length_cons, List.length_nil]
  omega

/-- A reference is found on the line of the header, behind the declaration, or on a later line of
the block. -/
theorem line_of_reference? {h : Header} (hh : h ∈ headers lines) {id : List Char} {s : Span}
    (hs : reference? lines (headers lines) h id = some s) :
    s.line = h.line ∧ h.indent + (h.id.length + 3) ≤ s.column
      ∨ h.line < s.line ∧ s.line < blockEnd lines (headers lines) h := by
  rcases reference?_cases hs with ⟨line, hline, hs⟩ | ⟨i, line, hfirst, hlast, -, hs⟩
  · exact .inl (column_of_recordReference? hh hline hs)
  · rcases lineReference?_cases hs with ⟨r, -, rfl⟩ | ⟨column, -, rfl⟩
    · exact .inr ⟨hfirst, hlast⟩
    · exact .inr ⟨hfirst, hlast⟩

/-! ## The index -/

namespace Index

/-- The line belongs to the block of the node. -/
def InBlock (ix : Index) (id : String) (i : Nat) : Prop :=
  ∃ first last, (id, first, last) ∈ ix.blocks ∧ first ≤ i ∧ i < last

/-- The blocks share out lines of the text among the located nodes, and all that is recorded and
looked up keeps to them. -/
structure IsPartition (ix : Index) (lines : List (List Char)) : Prop where
  /-- A located node has a block, and no other node has one. -/
  exists_block_iff : ∀ id, (∃ first last, (id, first, last) ∈ ix.blocks) ↔ (ix.node? id).isSome
  /-- The block of a node starts at the first header with its id, where the node is located. -/
  isBlock : ∀ id first last, (id, first, last) ∈ ix.blocks →
    ∃ h ∈ headers lines, h.id = id ∧ h.line = first ∧ ix.node? id = some (declaration h)
      ∧ (∀ k ∈ headers lines, k.id = id → first ≤ k.line) ∧ IsBlock lines h last
  /-- Blocks of different nodes have no line in common. -/
  disjoint : ∀ id id' i, ix.InBlock id i → ix.InBlock id' i → id = id'
  /-- An edge stands in the block of its target. -/
  edge_inBlock : ∀ source target s, ((source, target), s) ∈ ix.edges → ix.InBlock target s.line
  node_apart_edge : ∀ n ∈ ix.nodes, ∀ e ∈ ix.edges, n.2.Apart e.2
  edge_apart_edge : ∀ e ∈ ix.edges, ∀ e' ∈ ix.edges, e.1.2 ≠ e'.1.2 → e.2.Apart e'.2
  elementAt_edge : ∀ i source target, ix.elementAt i = some (.edge source target) →
    ix.InBlock target i ∧ ∃ s, ix.edge? source target = some s ∧ s.line = i
  elementAt_node_iff : ∀ i id, ix.elementAt i = some (.node id) ↔
    ix.InBlock id i ∧ ∀ e ∈ ix.edges, e.2.line ≠ i
  elementAt_none_iff : ∀ i, ix.elementAt i = none ↔ ∀ id, ¬ ix.InBlock id i

variable {text : List Char} {d : Document}

theorem mem_nodes_build {id : String} {s : Span} :
    (id, s) ∈ (build text d).nodes ↔ id ∈ d.nodeIds
      ∧ ∃ h, header? (headers (Text.lines text)) id = some h ∧ declaration h = s := by
  rw [nodes_build, mem_filterMap_keys, mem_distinct, Option.map_eq_some_iff]

theorem mem_edges_build {e : String × String} {s : Span} :
    (e, s) ∈ (build text d).edges ↔ e ∈ documentEdges d
      ∧ ∃ h, header? (headers (Text.lines text)) e.2 = some h
        ∧ reference? (Text.lines text) (headers (Text.lines text)) h e.1.toList = some s := by
  rw [build, mem_filterMap_keys, edgeSpan?, Option.bind_eq_some_iff]

/-- Located elements stand in front of the end of their lines, carriage returns apart. -/
theorem coversInside_of_mem_spans {s : Span} (h : s ∈ (build text d).spans) :
    ∃ piece, s.CoversInside (Text.lines text) piece := by
  rcases List.mem_append.1 h with h | h
  · obtain ⟨⟨id, s⟩, hmem, rfl⟩ := List.mem_map.1 h
    obtain ⟨-, -, -, -, hcovers⟩ := covers_of_mem_nodes text d hmem
    exact ⟨_, hcovers.inside (c := '-') (by simp [declarationText]) (by decide)⟩
  · obtain ⟨⟨e, s⟩, hmem, rfl⟩ := List.mem_map.1 h
    obtain ⟨-, h, -, href⟩ := mem_edges_build.1 hmem
    obtain ⟨piece, -, hcovers⟩ := coversInside_of_reference? href
    exact ⟨piece, hcovers⟩

theorem mem_blocks_build {id : String} {first last : Nat} :
    (id, first, last) ∈ (build text d).blocks ↔ id ∈ d.nodeIds
      ∧ ∃ h, header? (headers (Text.lines text)) id = some h ∧ h.line = first
        ∧ blockEnd (Text.lines text) (headers (Text.lines text)) h = last := by
  simp only [build, List.mem_filterMap, mem_distinct, Option.map_eq_some_iff, Prod.mk.injEq]
  constructor
  · rintro ⟨_, hid, h, hh, rfl, rfl, rfl⟩
    exact ⟨hid, h, hh, rfl, rfl⟩
  · rintro ⟨hid, h, hh, rfl, rfl⟩
    exact ⟨id, hid, h, hh, rfl, rfl, rfl⟩

theorem inBlock_build_iff {id : String} {i : Nat} :
    (build text d).InBlock id i ↔ id ∈ d.nodeIds
      ∧ ∃ h, header? (headers (Text.lines text)) id = some h ∧ h.line ≤ i
        ∧ i < blockEnd (Text.lines text) (headers (Text.lines text)) h := by
  constructor
  · rintro ⟨first, last, hmem, hfirst, hlast⟩
    obtain ⟨hid, h, hh, rfl, rfl⟩ := mem_blocks_build.1 hmem
    exact ⟨hid, h, hh, hfirst, hlast⟩
  · rintro ⟨hid, h, hh, hfirst, hlast⟩
    exact ⟨h.line, _, mem_blocks_build.2 ⟨hid, h, hh, rfl, rfl⟩, hfirst, hlast⟩

/-- Blocks that have a line in common have one header. -/
theorem header_eq_of_common_line {id id' : String} {h h' : Header} {i : Nat}
    (hh : header? (headers (Text.lines text)) id = some h)
    (hh' : header? (headers (Text.lines text)) id' = some h')
    (hi : h.line ≤ i ∧ i < blockEnd (Text.lines text) (headers (Text.lines text)) h)
    (hi' : h'.line ≤ i ∧ i < blockEnd (Text.lines text) (headers (Text.lines text)) h') :
    h = h' := by
  have hmem := (header?_first hh).1
  have hmem' := (header?_first hh').1
  have hline := (isBlock_blockEnd hmem).disjoint (isBlock_blockEnd hmem') hmem hmem' hi hi'
  exact eq_of_line_eq hmem hmem' hline

/-- An edge stands in the block of its target. -/
theorem inBlock_of_mem_edges {source target : String} {s : Span}
    (hs : ((source, target), s) ∈ (build text d).edges) :
    (build text d).InBlock target s.line := by
  obtain ⟨hedge, h, hh, hs⟩ := mem_edges_build.1 hs
  obtain ⟨n, hn, hid, -⟩ := mem_documentEdges.1 hedge
  have hmem := (header?_first hh).1
  refine inBlock_build_iff.2 ⟨hid ▸ List.mem_map_of_mem hn, h, hh, ?_⟩
  rcases line_of_reference? hmem hs with ⟨hline, -⟩ | ⟨hfirst, hlast⟩
  · exact ⟨Nat.le_of_eq hline.symm, hline ▸ (isBlock_blockEnd hmem).line_lt⟩
  · exact ⟨Nat.le_of_lt hfirst, hlast⟩

theorem eq_of_inBlock {id id' : String} {i : Nat} (hi : (build text d).InBlock id i)
    (hi' : (build text d).InBlock id' i) : id = id' := by
  obtain ⟨-, h, hh, hline⟩ := inBlock_build_iff.1 hi
  obtain ⟨-, h', hh', hline'⟩ := inBlock_build_iff.1 hi'
  obtain rfl := header_eq_of_common_line hh hh' hline hline'
  exact (header?_first hh).2.1.symm.trans (header?_first hh').2.1

/-- No reference overlaps a declaration. -/
theorem apart_of_mem {id source target : String} {s t : Span}
    (hs : (id, s) ∈ (build text d).nodes) (ht : ((source, target), t) ∈ (build text d).edges) :
    s.Apart t := by
  obtain ⟨-, h, hh, rfl⟩ := mem_nodes_build.1 hs
  obtain ⟨-, k, hk, ht⟩ := mem_edges_build.1 ht
  have hmem := (header?_first hh).1
  have hmem' := (header?_first hk).1
  by_cases hline : h.line = t.line
  · rcases line_of_reference? hmem' ht with ⟨hline', hcolumn⟩ | ⟨hfirst, hlast⟩
    · obtain rfl := eq_of_line_eq hmem hmem' (hline.trans hline')
      exact .inr (.inl hcolumn)
    · -- A later line of a block is no header.
      have hle := (isBlock_blockEnd hmem').le_line h hmem (hline ▸ hfirst)
      omega
  · exact .inl hline

/-! ### What stands on a line -/

/-- An edge that is referred to on the line is found, or else a node whose block has the line. -/
theorem elementAt_cases (ix : Index) (i : Nat) :
    (∃ source target s, ((source, target), s) ∈ ix.edges ∧ s.line = i
      ∧ ix.elementAt i = some (.edge source target))
    ∨ (∀ e ∈ ix.edges, e.2.line ≠ i) ∧ ix.elementAt i
      = (ix.blocks.find? fun b => b.2.1 ≤ i ∧ i < b.2.2).map fun b => .node b.1 := by
  unfold elementAt
  split
  · next source target s hfound =>
    exact .inl ⟨source, target, s, List.mem_of_find?_eq_some hfound,
      by simpa using List.find?_some hfound, rfl⟩
  · next hnone => exact .inr ⟨by simpa using hnone, rfl⟩

/-- The node of a block with the line is found there. -/
theorem inBlock_of_find? {ix : Index} {i : Nat} {b : String × Nat × Nat}
    (h : (ix.blocks.find? fun b => b.2.1 ≤ i ∧ i < b.2.2) = some b) : ix.InBlock b.1 i := by
  have hline : b.2.1 ≤ i ∧ i < b.2.2 := by simpa using List.find?_some h
  exact ⟨b.2.1, b.2.2, List.mem_of_find?_eq_some h, hline⟩

theorem elementAt_edge {i : Nat} {source target : String}
    (h : (build text d).elementAt i = some (.edge source target)) :
    (build text d).InBlock target i
      ∧ ∃ s, (build text d).edge? source target = some s ∧ s.line = i := by
  rcases elementAt_cases (build text d) i with ⟨source', target', s, hs, hline, heq⟩ | ⟨-, heq⟩
  · rw [heq] at h
    obtain ⟨rfl, rfl⟩ := Element.edge.inj (Option.some.inj h)
    obtain ⟨hedge, hspan⟩ := mem_filterMap_keys.1 hs
    refine ⟨hline ▸ inBlock_of_mem_edges hs, s, ?_, hline⟩
    rw [edge?_build, if_pos hedge]
    exact hspan
  · rw [heq] at h
    obtain ⟨b, -, hb⟩ := Option.map_eq_some_iff.1 h
    cases hb

theorem elementAt_node_iff {i : Nat} {id : String} :
    (build text d).elementAt i = some (.node id)
      ↔ (build text d).InBlock id i ∧ ∀ e ∈ (build text d).edges, e.2.line ≠ i := by
  rcases elementAt_cases (build text d) i with ⟨source, target, s, hs, hline, heq⟩ | ⟨hnot, heq⟩
  · rw [heq]
    refine iff_of_false (by simp) fun h => h.2 _ hs hline
  · rw [heq, Option.map_eq_some_iff, and_iff_left hnot]
    constructor
    · rintro ⟨b, hb, hid⟩
      obtain rfl := Element.node.inj hid
      exact inBlock_of_find? hb
    · intro hi
      obtain ⟨first, last, hmem, hline⟩ := hi
      obtain ⟨b, hb⟩ : ∃ b, ((build text d).blocks.find? fun b => b.2.1 ≤ i ∧ i < b.2.2) = some b :=
        Option.isSome_iff_exists.1 (List.find?_isSome.2 ⟨_, hmem, by simpa using hline⟩)
      have hid : b.1 = id := eq_of_inBlock (inBlock_of_find? hb) ⟨first, last, hmem, hline⟩
      exact ⟨b, hb, congrArg _ hid⟩

theorem elementAt_none_iff {i : Nat} :
    (build text d).elementAt i = none ↔ ∀ id, ¬ (build text d).InBlock id i := by
  rcases elementAt_cases (build text d) i with ⟨source, target, s, hs, hline, heq⟩ | ⟨-, heq⟩
  · rw [heq]
    exact iff_of_false (by simp) fun h => h target (hline ▸ inBlock_of_mem_edges hs)
  · rw [heq, Option.map_eq_none_iff, List.find?_eq_none]
    constructor
    · rintro h id ⟨first, last, hmem, hline⟩
      exact h _ hmem (by simpa using hline)
    · intro h b hmem hline
      exact h b.1 ⟨b.2.1, b.2.2, hmem, by simpa using hline⟩

/-- **The index of a document in a text keeps to the blocks**, whatever the text and the
document. -/
theorem build_isPartition (text : List Char) (d : Document) :
    (build text d).IsPartition (Text.lines text) := by
  constructor
  case exists_block_iff =>
    intro id
    rw [node?_build]
    constructor
    · rintro ⟨first, last, hmem⟩
      obtain ⟨hid, h, hh, -⟩ := mem_blocks_build.1 hmem
      rw [if_pos hid, hh]
      rfl
    · intro hlocated
      split at hlocated
      · next hid =>
        obtain ⟨h, hh⟩ := Option.isSome_iff_exists.1 (by simpa using hlocated)
        exact ⟨h.line, _, mem_blocks_build.2 ⟨hid, h, hh, rfl, rfl⟩⟩
      · exact absurd hlocated (by simp)
  case isBlock =>
    intro id first last hmem
    obtain ⟨hid, h, hh, rfl, rfl⟩ := mem_blocks_build.1 hmem
    obtain ⟨hheader, hid', hfirst⟩ := header?_first hh
    refine ⟨h, hheader, hid', rfl, ?_, hfirst, isBlock_blockEnd hheader⟩
    rw [node?_build, if_pos hid, hh, Option.map_some]
  case disjoint => exact fun _ _ _ => eq_of_inBlock
  case edge_inBlock => exact fun _ _ _ => inBlock_of_mem_edges
  case node_apart_edge => exact fun _ hn _ he => apart_of_mem hn he
  case edge_apart_edge =>
    intro e he e' he' hne
    exact .inl fun hline =>
      hne (eq_of_inBlock (inBlock_of_mem_edges he) (hline ▸ inBlock_of_mem_edges he'))
  case elementAt_edge => exact fun _ _ _ => elementAt_edge
  case elementAt_node_iff => exact fun _ _ => elementAt_node_iff
  case elementAt_none_iff => exact fun _ => elementAt_none_iff

end Index

end Location

end ThreatTree
