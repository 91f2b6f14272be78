import ThreatTree.Proofs.Location.Index
import ThreatTree.Proofs.Location.Written

/-!
# The entries of an outline

The scan is followed through the lines of an outline with the invariant `Scan.InSection`: after the
key of a section, and after each entry in it, the scan has the section in mind and takes list items
at the left margin for entries. So it finds the entries and nothing else (`ids_headers_outline`),
and the block of an entry is its lists with the empty lines after them (`block_entry`).

So every node is located at the first line of its entry (`node?_outline`), and a predecessor where
the lists of the entry have it first (`edge?_outline`), whichever lists an entry has and however
they are written.
-/

namespace ThreatTree.Location

open Outline

variable {d : Document} {listings : Node → List Listing}

/-! ## The scan -/

namespace Scan

/-- The scan is in a section whose entries are at the left margin. -/
def InSection (s : Scan) (c : Category) : Prop := s.current = some c ∧ s.indent.getD 0 = 0

/-- There are no headers before the first section. -/
theorem header?_start (i : Nat) (line : List Char) : start.header? i line = none := by
  rw [header?]
  cases topLevelKey? line <;> rfl

theorem header?_keyLine (s : Scan) (i : Nat) (c : Category) :
    s.header? i (keyLine c) = none := by
  rw [header?, topLevelKey?_keyLine]

theorem inSection_next_keyLine (s : Scan) (c : Category) :
    (s.next (keyLine c)).InSection c := by
  rw [next, topLevelKey?_keyLine]
  exact ⟨sectionOf?_sectionName c, rfl⟩

variable {s : Scan} {c : Category} {n : Node}

theorem header?_firstLine (hs : s.InSection c) (hn : n.IsPlain) (i : Nat) :
    s.header? i (firstLine n) = some ⟨i, 0, n.id, c⟩ := by
  rw [header?, topLevelKey?_firstLine, hs.1, itemKey?_firstLine hn.id]
  simp only [hs.2, if_true, String.ofList_toList]

theorem inSection_next_firstLine (hs : s.InSection c) (hn : n.IsPlain) :
    (s.next (firstLine n)).InSection c := by
  rw [next, topLevelKey?_firstLine, hs.1, itemKey?_firstLine hn.id]
  exact ⟨rfl, hs.2⟩

/-! ### Over the entries of a section -/

theorem headers_entry (hs : s.InSection c) (hn : n.IsPlainEntry listings) (i : Nat) :
    s.headers i (entryLines listings n) = [⟨i, 0, n.id, c⟩] := by
  rw [entryLines_eq, headers_cons, header?_firstLine hs hn.toIsPlain,
    headers_of_isInert (isInert_bodyLines hn)]
  rfl

theorem inSection_after_entry (hs : s.InSection c) (hn : n.IsPlainEntry listings) :
    (s.after (entryLines listings n)).InSection c := by
  rw [entryLines_eq, after_cons, after_of_isInert (isInert_bodyLines hn)]
  exact inSection_next_firstLine hs hn.toIsPlain

theorem inSection_after_entries {ns : List Node} (hs : s.InSection c)
    (hns : ∀ n ∈ ns, n.IsPlainEntry listings) :
    (s.after (ns.flatMap (entryLines listings))).InSection c := by
  induction ns generalizing s with
  | nil => exact hs
  | cons n ns ih =>
    rw [List.flatMap_cons, after_append]
    exact ih (inSection_after_entry hs (hns n List.mem_cons_self))
      fun m hm => hns m (List.mem_cons_of_mem n hm)

theorem ids_headers_entries {ns : List Node} (hs : s.InSection c)
    (hns : ∀ n ∈ ns, n.IsPlainEntry listings) (i : Nat) :
    (s.headers i (ns.flatMap (entryLines listings))).map (·.id) = ns.map (·.id) := by
  induction ns generalizing s i with
  | nil => rfl
  | cons n ns ih =>
    have hn : n.IsPlainEntry listings := hns n List.mem_cons_self
    rw [List.flatMap_cons, headers_append, headers_entry hs hn, List.map_append,
      ih (inSection_after_entry hs hn) fun m hm => hns m (List.mem_cons_of_mem n hm)]
    rfl

/-! ### Over the sections -/

variable (gap : Category → Nat)

theorem ids_headers_section (hd : d.IsPlainOutline listings) (s : Scan) (i : Nat) (c : Category) :
    (s.headers i (sectionLines d listings gap c)).map (·.id) = (d.listed c).map (·.id) := by
  rw [sectionLines, headers_append, headers_of_isInert (isInert_empty _), List.nil_append,
    headers_cons, header?_keyLine, Option.toList_none, List.nil_append]
  exact ids_headers_entries (inSection_next_keyLine _ c) (fun n hn => hd.isPlainEntry hn) _

theorem ids_headers_sections (hd : d.IsPlainOutline listings) (s : Scan) (i : Nat)
    (cs : List Category) :
    (s.headers i (cs.flatMap (sectionLines d listings gap))).map (·.id) =
      (cs.flatMap d.listed).map (·.id) := by
  induction cs generalizing s i with
  | nil => rfl
  | cons c cs ih =>
    rw [List.flatMap_cons, headers_append, List.map_append, ids_headers_section gap hd, ih,
      List.flatMap_cons, List.map_append]

theorem inSection_after_linesBefore (d : Document) (c : Category) {before : List Node}
    (hbefore : ∀ n ∈ before, n.IsPlainEntry listings) :
    (start.after (linesBefore d listings gap c before)).InSection c := by
  rw [linesBefore, after_append, after_cons]
  exact inSection_after_entries (inSection_next_keyLine _ c) hbefore

end Scan

/-! ## The headers of an outline -/

/-- The lines of the text of an outline. -/
def textLines (d : Document) (listings : Node → List Listing) (gap : Category → Nat)
    (tail : Nat) : List (List Char) :=
  d.outlineLines listings gap ++ List.replicate tail []

/-- The header of an entry. -/
def headerOf (d : Document) (listings : Node → List Listing) (gap : Category → Nat)
    (c : Category) (before : List Node) (n : Node) : Header :=
  ⟨(linesBefore d listings gap c before).length, 0, n.id, c⟩

section Outline

variable (gap : Category → Nat) (tail : Nat) {c : Category} {before after : List Node} {n : Node}

theorem getElem?_headerOf (h : d.listed c = before ++ n :: after) :
    (textLines d listings gap tail)[(headerOf d listings gap c before n).line]? =
      some (firstLine n) := by
  rw [textLines, outlineLines_eq _ _ _ h, entryLines_eq, headerOf,
    List.getElem?_append_right (Nat.le_refl _), Nat.sub_self]
  rfl

/-- After the lists of an entry, there are empty lines up to the next entry, or the key of the
next section, or the end. -/
theorem linesAfter_eq (d : Document) (listings : Node → List Listing) (c : Category)
    (after : List Node) :
    ∃ k rest, linesAfter d listings gap tail c after = List.replicate k [] ++ rest
      ∧ ∀ y, rest.head? = some y →
          (k = 0 ∧ ∃ n after', after = n :: after') ∨ isTopLevelKey y = true := by
  cases after with
  | cons n after =>
    exact ⟨0, _, rfl, fun y _ => .inl ⟨rfl, n, after, rfl⟩⟩
  | nil =>
    cases hlater : c.later with
    | nil => exact ⟨tail, [], by simp [linesAfter, hlater], by simp⟩
    | cons c' cs =>
      refine ⟨gap c', keyLine c' :: ((d.listed c').flatMap (entryLines listings)
        ++ cs.flatMap (sectionLines d listings gap) ++ List.replicate tail []),
        ?_, fun y hy => .inr ?_⟩
      · simp [linesAfter, hlater, sectionLines]
      · rw [List.head?_cons, Option.some.injEq] at hy
        rw [← hy, isTopLevelKey, topLevelKey?_keyLine]
        rfl

variable (hd : d.IsPlainOutline listings) (h : d.listed c = before ++ n :: after)

include hd

/-- There is one header for each node, in the order of the document. -/
theorem ids_headers_outline :
    (headers (textLines d listings gap tail)).map (·.id) = d.nodeIds := by
  rw [headers_eq, textLines, Scan.headers_append, Scan.headers_of_isInert (isInert_empty tail),
    List.append_nil, Document.outlineLines, Scan.headers_cons, Scan.header?_start,
    Option.toList_none, List.nil_append, Scan.ids_headers_sections gap hd]
  rfl

include h

theorem headerOf_mem_headers :
    headerOf d listings gap c before n ∈ headers (textLines d listings gap tail) := by
  have hentry : ∀ m ∈ before ++ n :: after, m.IsPlainEntry listings := fun m hm =>
    hd.isPlainEntry (h ▸ hm)
  have hsection := Scan.inSection_after_linesBefore gap d c fun m hm =>
    hentry m (List.mem_append_left _ hm)
  rw [headers_eq, textLines, outlineLines_eq _ _ _ h, Scan.headers_append, Scan.headers_append,
    Scan.headers_entry hsection (hentry n (by simp)), Nat.zero_add]
  simp [headerOf]

theorem header?_textLines :
    Index.header? (headers (textLines d listings gap tail)) n.id =
      some (headerOf d listings gap c before n) := by
  have hnodup : ((headers (textLines d listings gap tail)).map (·.id)).Nodup := by
    rw [ids_headers_outline gap tail hd]
    exact hd.nodup
  exact Index.header?_of_nodup hnodup (headerOf_mem_headers gap tail hd h)

/-! ## The block of an entry -/

/-- The block of an entry is its lists, and the empty lines after them. -/
theorem block_entry :
    let lines := textLines d listings gap tail
    let header := headerOf d listings gap c before n
    ∃ k, (lines.take (blockEnd lines (headers lines) header)).drop (header.line + 1) =
      bodyLines listings n ++ List.replicate k [] := by
  intro lines header
  have hmem : n ∈ d.listed c := h ▸ List.mem_append_right before List.mem_cons_self
  have hn : n.IsPlainEntry listings := hd.isPlainEntry hmem
  obtain ⟨k, rest, hafter, hrest⟩ := linesAfter_eq gap tail d listings c after
  have hlines : lines = (linesBefore d listings gap c before ++ [firstLine n])
      ++ ((bodyLines listings n ++ List.replicate k []) ++ rest) := by
    show textLines d listings gap tail = _
    rw [textLines, outlineLines_eq _ _ _ h, hafter, entryLines_eq]
    simp
  refine ⟨k, block_eq hlines (by simp [header, headerOf]) rfl (fun x hx => ?_) fun y hy => ?_⟩
  · rcases List.mem_append.1 hx with hx | hx
    · exact isInert_bodyLines hn x hx
    · exact isInert_empty k x hx
  · refine (hrest y hy).imp_left ?_
    rintro ⟨rfl, m, after, rfl⟩
    -- The next header is that of the next node of the section.
    refine ⟨headerOf d listings gap c (before ++ [n]) m,
      headerOf_mem_headers gap tail hd (by simpa using h), ?_⟩
    rw [headerOf, linesBefore_append, entryLines_eq]
    simp
    omega

theorem reference?_entry (id : List Char) :
    let lines := textLines d listings gap tail
    let header := headerOf d listings gap c before n
    reference? lines (headers lines) header id =
      firstReference? id (header.line + 1) (bodyLines listings n) := by
  intro lines header
  have hmem : n ∈ d.listed c := h ▸ List.mem_append_right before List.mem_cons_self
  have hn : n.IsPlainEntry listings := hd.isPlainEntry hmem
  obtain ⟨k, hblock⟩ := block_entry gap tail hd h
  have hline : lines[header.line]? = some (firstLine n) := getElem?_headerOf gap tail h
  rw [reference?, hline, Option.bind_some, recordReference?_firstLine hn.toIsPlain,
    Option.none_or, hblock, firstReference?_append, firstReference?_empty, Option.or_none]

/-! ## The index -/

theorem node?_outline :
    (Index.build (d.outline listings gap tail) d).node? n.id =
      some (Index.declaration (headerOf d listings gap c before n)) := by
  have hn : n ∈ d.nodes := List.mem_flatMap.2 ⟨c, Category.mem_all c, by simp [h]⟩
  have hid : n.id ∈ d.nodeIds := List.mem_map_of_mem hn
  have hlines : Text.lines (d.outline listings gap tail) = textLines d listings gap tail :=
    hd.lines_eq gap tail
  rw [Index.node?_build, if_pos hid, hlines, header?_textLines gap tail hd h]
  rfl

theorem edge?_outline {p : String} (hp : p ∈ n.predecessors) :
    (Index.build (d.outline listings gap tail) d).edge? p n.id =
      firstReference? p.toList ((headerOf d listings gap c before n).line + 1)
        (bodyLines listings n) := by
  have hn : n ∈ d.nodes := List.mem_flatMap.2 ⟨c, Category.mem_all c, by simp [h]⟩
  have hlines : Text.lines (d.outline listings gap tail) = textLines d listings gap tail :=
    hd.lines_eq gap tail
  rw [Index.edge?_build, if_pos (Index.mem_documentEdges.2 ⟨n, hn, rfl, hp⟩), hlines,
    Index.edgeSpan?, header?_textLines gap tail hd h]
  exact reference?_entry gap tail hd h p.toList

end Outline

end ThreatTree.Location
