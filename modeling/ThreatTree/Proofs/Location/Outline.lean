import ThreatTree.Proofs.Location.Entry

/-!
# The index of an outline

In the outline of a conventional document, where an entry has at most one list, that of its
predecessors, the index finds every node at its own entry and every predecessor where the entry
lists it first (`build_outline`).
-/

namespace ThreatTree.Location

open Outline

variable {d : Document} (style : Node → Option Outline.Style) (gap : Category → Nat) (tail : Nat)

/-- The lines of the text of an outline. -/
def outlineTextLines (d : Document) (style : Node → Option Outline.Style) (gap : Category → Nat)
    (tail : Nat) : List (List Char) :=
  d.outlineLines (predecessorsOnly style) gap ++ List.replicate tail []

/-- The header of an entry. -/
def entryHeader (d : Document) (style : Node → Option Outline.Style) (gap : Category → Nat)
    (c : Category) (before : List Node) (n : Node) : Header :=
  ⟨(linesBefore d (predecessorsOnly style) gap c before).length, 0, n.id, c⟩

variable {c : Category} {before after : List Node} {n : Node}

theorem header?_outline (hd : d.IsConventional) (h : d.listed c = before ++ n :: after) :
    Index.header? (headers (outlineTextLines d style gap tail)) n.id =
      some (entryHeader d style gap c before n) :=
  header?_textLines gap tail (isPlainOutline_predecessorsOnly hd style) h

theorem getElem?_entry (h : d.listed c = before ++ n :: after) :
    (outlineTextLines d style gap tail)[(entryHeader d style gap c before n).line]? =
      some (firstLine n) :=
  getElem?_headerOf gap tail h

theorem reference?_outline (hd : d.IsConventional) (h : d.listed c = before ++ n :: after)
    {p : String} (hp : p ∈ n.predecessors) :
    let lines := outlineTextLines d style gap tail
    let header := entryHeader d style gap c before n
    reference? lines (headers lines) header p.toList =
      listedAt header.line n.predecessors p (style n) := by
  intro lines header
  have hmem : n ∈ d.listed c := h ▸ List.mem_append_right before List.mem_cons_self
  have hn : n.IsPlain := hd.isPlain_of_listed hmem
  have hentry := reference?_entry gap tail (isPlainOutline_predecessorsOnly hd style) h p.toList
  rw [bodyLines_predecessorsOnly] at hentry
  exact hentry.trans (firstReference?_listLines hn.predecessors hp _ _)

/-! ## Completeness -/

/-- **The index of an outline is complete and exact.** Every node of a conventional document is
located at the first line of its entry, and every predecessor where the entry lists it first,
however the lists are written and however many empty lines there are. -/
theorem build_outline (hd : d.IsConventional) (style : Node → Option Outline.Style)
    (gap : Category → Nat) (tail : Nat) :
    let text := d.outline (predecessorsOnly style) gap tail
    let ix := Index.build text d
    ∀ c before n after, d.listed c = before ++ n :: after →
      let i := (linesBefore d (predecessorsOnly style) gap c before).length
      (Text.lines text)[i]? = some (firstLine n)
      ∧ ix.node? n.id = some ⟨i, 0, n.id.length + 3⟩
      ∧ ∀ p ∈ n.predecessors,
          ix.edge? p n.id = listedAt i n.predecessors p (style n)
          ∧ ∀ st s, style n = some st → ix.edge? p n.id = some s →
              s.excerpt text = .ok (reference p st) := by
  intro text ix c before n after h i
  have hlines : Text.lines text = outlineTextLines d style gap tail :=
    lines_outline gap hd style tail
  have hn : n ∈ d.nodes := List.mem_flatMap.2 ⟨c, Category.mem_all c, by simp [h]⟩
  have hheader := header?_outline style gap tail hd h
  refine ⟨?_, ?_, fun p hp => ?_⟩
  · rw [hlines]
    exact getElem?_entry style gap tail h
  · have hid : n.id ∈ d.nodeIds := List.mem_map_of_mem hn
    rw [Index.node?_build, if_pos hid, hlines, hheader]
    rfl
  · have hedge : ix.edge? p n.id = reference? (outlineTextLines d style gap tail)
        (headers (outlineTextLines d style gap tail)) (entryHeader d style gap c before n)
        p.toList := by
      rw [Index.edge?_build, if_pos (Index.mem_documentEdges.2 ⟨n, hn, rfl, hp⟩), hlines,
        Index.edgeSpan?, hheader]
      rfl
    have hlisted : ix.edge? p n.id = listedAt i n.predecessors p (style n) :=
      hedge.trans (reference?_outline style gap tail hd h hp)
    refine ⟨hlisted, fun st s hst hs => ?_⟩
    obtain ⟨piece, hpiece, hcovers⟩ := covers_of_reference? (hedge.symm.trans hs)
    have hlength : piece.length = (reference p st).length := by
      obtain ⟨-, -, -, -, hlength⟩ := hcovers
      rw [hlength]
      exact length_of_listedAt (hst ▸ hlisted.symm.trans hs)
    rw [← eq_reference hpiece hlength]
    exact Span.Covers.excerpt (hlines ▸ hcovers)

/-- A document where one id starts another, and where labels look like references. -/
def misleading : Document where
  title := "from: [net]"
  theme := none
  facts := [⟨"net", "- network:", .fact, [], [], [], by decide⟩,
    ⟨"network", "from: [net]", .fact, [], [], [], by decide⟩]
  attacks := [⟨"a.1", "- net", .attack, ["network", "net", "network"], [], [], by decide⟩]
  mitigations := []
  goals := [⟨"-", "", .goal, ["a.1", "network", "net"], [], [], by decide⟩]

/-- Attacks have their predecessors over several lines, and goals in brackets. -/
def misleadingStyle (n : Node) : Option Outline.Style :=
  match n.category with
  | .fact => none
  | .attack | .mitigation => some .block
  | .goal => some .brackets

theorem build_outline_misleading :
    let ix := Index.build
      (misleading.outline (predecessorsOnly misleadingStyle) (fun _ => 2) 1) misleading
    misleading.IsConventional
      ∧ ix.node? "a.1" = some ⟨9, 0, 6⟩
      ∧ ix.edge? "net" "a.1" = some ⟨12, 2, 5⟩ ∧ ix.edge? "network" "a.1" = some ⟨11, 2, 9⟩
      ∧ ix.node? "-" = some ⟨20, 0, 4⟩ ∧ ix.edge? "net" "-" = some ⟨21, 23, 3⟩ := by
  have hd : misleading.IsConventional := ⟨by decide, by decide +kernel, by decide⟩
  obtain ⟨-, hattack, hattacks⟩ := build_outline hd misleadingStyle (fun _ => 2) 1
    .attack [] _ [] rfl
  obtain ⟨-, hgoal, hgoals⟩ := build_outline hd misleadingStyle (fun _ => 2) 1
    .goal [] _ [] rfl
  refine ⟨hd, hattack.trans ?_, (hattacks "net" (by decide)).1.trans ?_,
    (hattacks "network" (by decide)).1.trans ?_, hgoal.trans ?_,
    (hgoals "net" (by decide)).1.trans ?_⟩ <;> decide +kernel

end ThreatTree.Location
