import Mathlib.Data.List.Nodup
import ThreatTree.Proofs.Location.Offsets
import ThreatTree.Proofs.Text.Units

/-!
# What the table of offsets selects

A span that covers a piece of a text cuts the text in front of the piece and behind it
(`Span.Covers.exists_parts`), so its offsets in UTF-16 units select the piece
(`unitOffsets_selects`). All spans of an index cover what they are the places of, hence every
entry of the table selects the excerpt of its span (`Index.offsets_isEntry`).
-/

namespace ThreatTree

/-- A span cuts a text in front of what it covers and behind it. -/
theorem Span.Covers.exists_parts {s : Span} {text piece : List Char}
    (h : s.Covers (Text.lines text) piece) :
    ∃ front back, text = front ++ piece ++ back
      ∧ s.offsets text = .ok (front.length, (front ++ piece).length) := by
  obtain ⟨⟨first, last⟩, hoffsets, ⟨hle, hlast⟩, hslice⟩ := h.offsets
  have hfront : text.take last = text.take first ++ piece := by
    rw [← hslice, Span.slice]
    show text.take last = text.take first ++ (text.take last).drop first
    have htake : (text.take last).take first = text.take first := by
      rw [List.take_take, Nat.min_eq_left hle]
    rw [← htake, List.take_append_drop]
  refine ⟨text.take first, text.drop last, ?_, ?_⟩
  · rw [← hfront, List.take_append_drop]
  · rw [← hfront, List.length_take, List.length_take, hoffsets,
      Nat.min_eq_left (Nat.le_trans hle hlast), Nat.min_eq_left hlast]

namespace Location

open Text (Selects)

/-- A range is the entry of a span: it has the offsets of the span, in UTF-16 units, and selects
what the span covers. -/
structure IsEntry (text : List Char) (s : Span) (range : Nat × Nat) : Prop where
  unitOffsets_eq : unitOffsets text s = .ok range
  selects : ∃ excerpt, s.excerpt text = .ok excerpt ∧ Selects text range excerpt

theorem isEntry_unitRange {text piece : List Char} {s : Span}
    (h : s.Covers (Text.lines text) piece) : IsEntry text s (unitRange text s) := by
  have hrange := unitOffsets_eq_ok h.isWithin rfl
  refine ⟨hrange, piece, h.excerpt, ?_⟩
  obtain ⟨front, back, htext, hoffsets⟩ := h.exists_parts
  have hunits : unitOffsets text s = .ok (Text.units front, Text.units (front ++ piece)) := by
    rw [unitOffsets, hoffsets]
    show Except.ok (Text.units (text.take front.length),
      Text.units (text.take (front ++ piece).length)) = _
    have htake : text.take (front ++ piece).length = front ++ piece := by
      rw [htext, List.take_left]
    rw [htake, htext, List.append_assoc, List.take_left]
  rw [hunits] at hrange
  rw [← Except.ok.inj hrange, htext]
  exact Text.selects_append front piece back

namespace Index

/-! ## The entries of a table -/

section Entries

variable (text : List Char) (d : Document)

theorem nodup_ids_build : ((build text d).nodes.map (·.1)).Nodup := by
  rw [nodes_build, List.map_filterMap]
  apply List.Nodup.filterMap _ (nodup_distinct d.nodeIds)
  intro id id' x hx hx'
  simp only [Option.map_map, Option.mem_def, Option.map_eq_some_iff] at hx hx'
  obtain ⟨_, -, rfl⟩ := hx
  obtain ⟨_, -, heq⟩ := hx'
  exact heq.symm

variable {text d}

theorem mem_nodes_build_iff {id : String} {s : Span} :
    (id, s) ∈ (build text d).nodes ↔ (build text d).node? id = some s := by
  rw [node?, nodes_build, lookup_filterMap_eq_some_iff]

theorem mem_edges_build_iff {source target : String} {s : Span} :
    ((source, target), s) ∈ (build text d).edges
      ↔ (build text d).edge? source target = some s :=
  lookup_filterMap_eq_some_iff.symm

section Table

variable {text' : List Char} {o : Offsets} (ho : (build text d).offsets text' = .ok o)
include ho

theorem map_fst_offsets_nodes : o.nodes.map (·.1) = (build text d).nodes.map (·.1) := by
  obtain rfl := eq_of_offsets_eq_ok ho
  rw [List.map_map]
  rfl

/-- The entry of a located node has the offsets of its span. -/
theorem lookup_offsets_nodes {id : String} {s : Span} (hs : (build text d).node? id = some s) :
    o.nodes.lookup id = some (unitRange text' s) := by
  have hnodup : (o.nodes.map (·.1)).Nodup := by
    rw [map_fst_offsets_nodes ho]
    exact nodup_ids_build text d
  rw [lookup_eq_some_iff_mem hnodup]
  obtain rfl := eq_of_offsets_eq_ok ho
  exact List.mem_map.2 ⟨(id, s), mem_nodes_build_iff.2 hs, rfl⟩

theorem mem_offsets_ids_iff (id : String) :
    id ∈ o.nodes.map (·.1) ↔ ((build text d).node? id).isSome = true := by
  rw [map_fst_offsets_nodes ho, List.mem_map, Option.isSome_iff_exists]
  constructor
  · intro h
    obtain ⟨⟨id, s⟩, hmem, rfl⟩ := h
    exact ⟨s, mem_nodes_build_iff.1 hmem⟩
  · intro h
    obtain ⟨s, hs⟩ := h
    exact ⟨(id, s), mem_nodes_build_iff.2 hs, rfl⟩

theorem mem_offsets_titles_iff (title : String) :
    title ∈ o.edges.map (·.1) ↔ ∃ source target, edgeTitle (source, target) = title
      ∧ ((build text d).edge? source target).isSome = true := by
  rw [map_fst_offsets ho, mem_distinct, List.mem_map]
  simp only [Option.isSome_iff_exists]
  constructor
  · intro h
    obtain ⟨⟨⟨source, target⟩, s⟩, hmem, htitle⟩ := h
    exact ⟨source, target, htitle, s, mem_edges_build_iff.1 hmem⟩
  · intro h
    obtain ⟨source, target, htitle, s, hs⟩ := h
    exact ⟨((source, target), s), mem_edges_build_iff.2 hs, htitle⟩

end Table

variable {o : Offsets} (ho : (build text d).offsets text = .ok o)
include ho

theorem isEntry_of_mem_nodes {id : String} {range : Nat × Nat} (h : (id, range) ∈ o.nodes) :
    ∃ s, (build text d).node? id = some s ∧ IsEntry text s range := by
  obtain rfl := eq_of_offsets_eq_ok ho
  obtain ⟨⟨id, s⟩, hmem, heq⟩ := List.mem_map.1 h
  obtain ⟨rfl, rfl⟩ := Prod.mk.inj heq
  obtain ⟨-, -, -, -, hcovers⟩ := covers_of_mem_nodes text d hmem
  exact ⟨s, mem_nodes_build_iff.1 hmem, isEntry_unitRange hcovers⟩

theorem isEntry_of_mem_edges {title : String} {range : Nat × Nat}
    (h : (title, range) ∈ o.edges) :
    ∃ before e after, (build text d).edges = before ++ e :: after ∧ edgeTitle e.1 = title
      ∧ (∀ e' ∈ after, edgeTitle e'.1 ≠ title) ∧ IsEntry text e.2 range := by
  obtain ⟨before, e, after, hedges, htitle, hlast, rfl⟩ := (mem_offsets_edges_iff ho).1 h
  have hmem : e ∈ (build text d).edges := hedges ▸ List.mem_append_right _ List.mem_cons_self
  obtain ⟨-, -, piece, -, hcovers⟩ := covers_of_mem_edges text d hmem
  exact ⟨before, e, after, hedges, htitle, hlast, isEntry_unitRange hcovers⟩

end Entries

/-- **The table of offsets of a text selects the excerpts of all spans**, whatever the text and the
document. The table exists. It has one entry for every located node, and one for every title of a
located edge. The entry of a node selects the excerpt of its span; that of a title selects the
excerpt of the last located edge with this title. No entry starts or ends inside a pair of
surrogates. -/
theorem offsets_isEntry (text : List Char) (d : Document) :
    let ix := build text d
    ∃ o, ix.offsets text = .ok o
      ∧ (o.nodes.map (·.1)).Nodup
      ∧ (∀ id, id ∈ o.nodes.map (·.1) ↔ (ix.node? id).isSome = true)
      ∧ (∀ id range, (id, range) ∈ o.nodes → ∃ s, ix.node? id = some s ∧ IsEntry text s range)
      ∧ (o.edges.map (·.1)).Nodup
      ∧ (∀ title, title ∈ o.edges.map (·.1) ↔ ∃ source target,
          edgeTitle (source, target) = title ∧ (ix.edge? source target).isSome = true)
      ∧ ∀ title range, (title, range) ∈ o.edges → ∃ before e after, ix.edges = before ++ e :: after
          ∧ edgeTitle e.1 = title ∧ (∀ e' ∈ after, edgeTitle e'.1 ≠ title)
          ∧ IsEntry text e.2 range := by
  intro ix
  obtain ⟨o, ho⟩ : ∃ o, ix.offsets text = .ok o := ⟨_, offsets_build text d⟩
  refine ⟨o, ho, ?_, mem_offsets_ids_iff ho, ?_, ?_, mem_offsets_titles_iff ho, ?_⟩
  · rw [map_fst_offsets_nodes ho]
    exact nodup_ids_build text d
  · intro id range h
    exact isEntry_of_mem_nodes ho h
  · rw [map_fst_offsets ho]
    exact nodup_distinct _
  · intro title range h
    exact isEntry_of_mem_edges ho h

end Index

end Location

end ThreatTree
