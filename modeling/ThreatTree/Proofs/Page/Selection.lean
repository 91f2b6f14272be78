import ThreatTree.Document.OfValue
import ThreatTree.Proofs.Graph.Declared
import ThreatTree.Proofs.Location.Partition
import ThreatTree.Proofs.Location.Selection
import ThreatTree.Proofs.Page.Safety
import ThreatTree.Proofs.Text.Returns

/-!
# What the page selects

The offsets on a page are counted in the text as it is written there, and the browser selects in
the text that it shows. The two have the same units in front of a span, but for the lines in front
of it that end in two carriage returns (`Text.doubledReturns`): each of them is written with one
unit more than is shown. So an entry lies as many units behind the place of its span as there are
such lines (`content_isBehindPlace`), and a text without two carriage returns in front of a line
feed is selected rightly. Otherwise something else is selected (`not_selects_behind_returns`).
-/

namespace ThreatTree

/-- The number of lines in front of a line that end in two carriage returns. -/
def Text.doubledReturns (s : List Char) (i : Nat) : Nat := ((lines s).take i).countP endsTwice

theorem Text.doubledReturns_eq_zero {s : List Char} (h : ¬ ['\r', '\r', '\n'] <:+: s) {i : Nat}
    {line : List Char} (hline : (lines s)[i]? = some line) : doubledReturns s i = 0 := by
  obtain ⟨rest, hs, -⟩ := exists_of_getElem?_lines hline
  rw [doubledReturns, List.countP_eq_zero]
  intro l hl hends
  apply h
  obtain ⟨front, rfl⟩ := endsTwice_iff.1 hends
  obtain ⟨before, after, hbefore⟩ := List.append_of_mem hl
  refine ⟨terminated before ++ front, terminated after ++ (line ++ rest), ?_⟩
  rw [hs, hbefore]
  simp [terminated]

namespace Span

open Text (lines terminated dropReturn feedReturn displayed units unixPairs)

/-- The span cuts a text: some lines, the front of its own line, what it covers, and the rest. The
rest of its line is not carriage returns alone, so no line feed follows the front of the line, also
when the text is written. -/
structure Cuts (s : Span) (text : List Char) (ls : List (List Char))
    (before piece rest : List Char) : Prop where
  span_eq : s = ⟨ls.length, before.length, piece.length⟩
  text_eq : text = terminated ls ++ (before ++ (piece ++ rest))
  not_mem_lines : ∀ line ∈ ls, '\n' ∉ line
  not_mem_before : '\n' ∉ before
  head?_ne : (piece ++ rest).head? ≠ some '\n'
  head?_unixPairs_ne : (unixPairs (piece ++ rest)).head? ≠ some '\n'

theorem CoversInside.exists_cuts {s : Span} {text piece : List Char}
    (h : s.CoversInside (lines text) piece) :
    ∃ ls before rest, s.Cuts text ls before piece rest := by
  obtain ⟨before, after, hline, hcolumn, hlength, hother⟩ := h
  obtain ⟨rest, htext, -⟩ := Text.exists_of_getElem?_lines hline
  have hlt : s.line < (lines text).length := (List.getElem?_eq_some_iff.1 hline).1
  have hfeed : '\n' ∉ before ++ piece ++ after :=
    Text.not_mem_of_mem_splitOn (List.mem_of_getElem? hline)
  simp only [List.mem_append, not_or] at hfeed
  obtain ⟨⟨hbefore, hpiece⟩, hafter⟩ := hfeed
  have hhead := Text.head?_unixPairs_ne (by simp [hpiece, hafter]) hother rest
  rw [List.append_assoc] at hhead
  refine ⟨(lines text).take s.line, before, after ++ rest, ?_⟩
  constructor
  case span_eq =>
    rw [List.length_take, Nat.min_eq_left (Nat.le_of_lt hlt), hcolumn, hlength]
  case text_eq => simpa using htext
  case not_mem_lines =>
    intro line hmem
    exact Text.not_mem_of_mem_splitOn (List.mem_of_mem_take hmem)
  case not_mem_before => exact hbefore
  case head?_ne => exact hhead.1
  case head?_unixPairs_ne => exact hhead.2

namespace Cuts

variable {s : Span} {text before piece rest : List Char} {ls : List (List Char)}
  (h : s.Cuts text ls before piece rest)
include h

theorem lines_eq : lines text = ls ++ lines (before ++ (piece ++ rest)) := by
  rw [h.text_eq, Text.lines_terminated_append h.not_mem_lines]

theorem line_eq : s.line = ls.length := by rw [h.span_eq]

theorem offsets_eq : s.offsets text = .ok ((terminated ls ++ before).length,
    (terminated ls ++ before ++ piece).length) := by
  have hlt : s.line < (lines text).length := by
    have hpos := List.length_pos_of_ne_nil
      (Text.splitOn_ne_nil '\n' (before ++ (piece ++ rest)))
    rw [h.line_eq, h.lines_eq, List.length_append, Text.lines]
    omega
  rw [offsets_of_lt hlt, h.lines_eq, h.span_eq, lineStart_append]
  simp only [List.length_append]

theorem take_eq : text.take (terminated ls ++ before).length = terminated ls ++ before := by
  rw [h.text_eq, ← List.append_assoc, List.take_left]

theorem doubledReturns_eq : Text.doubledReturns text s.line = ls.countP Text.endsTwice := by
  rw [Text.doubledReturns, h.lines_eq, h.line_eq, List.take_left]

/-- The offsets in the written text are the units of the written lines in front of the span, and of
what stands in front of it in its own line. -/
theorem unitRange_unixPairs (hpiece : '\r' ∉ piece) :
    Location.unitRange (unixPairs text) s = (units (terminated (ls.map dropReturn) ++ before),
      units (terminated (ls.map dropReturn) ++ before ++ piece)) := by
  have hwritten : unixPairs text
      = terminated (ls.map dropReturn) ++ (before ++ (piece ++ unixPairs rest)) := by
    rw [h.text_eq, Text.unixPairs_terminated_append h.not_mem_lines,
      Text.unixPairs_keep_append h.not_mem_before h.head?_ne, Text.unixPairs_append hpiece]
  have hfeed : ∀ line ∈ ls.map dropReturn, '\n' ∉ line := by
    intro line hline
    obtain ⟨line', hmem, rfl⟩ := List.mem_map.1 hline
    exact Text.not_mem_dropReturn (h.not_mem_lines line' hmem)
  have hstart : lineStart s.line (lines (unixPairs text))
      = (terminated (ls.map dropReturn)).length := by
    rw [hwritten, Text.lines_terminated_append hfeed, h.line_eq, ← List.length_map dropReturn]
    exact lineStart_append _ _
  rw [Location.unitRange, hstart, hwritten, h.span_eq]
  show (units (List.take ((terminated (ls.map dropReturn)).length + before.length) _),
    units (List.take ((terminated (ls.map dropReturn)).length + before.length + piece.length) _))
      = _
  rw [← List.length_append, ← List.append_assoc, List.take_left, ← List.length_append,
    ← List.append_assoc, List.take_left]

/-- What a browser shows in front of the span. -/
theorem displayed_front_eq : displayed (terminated ls ++ before)
    = displayed (terminated ls) ++ before.map feedReturn := by
  rw [Text.displayed_terminated_append h.not_mem_lines, Text.displayed_of_not_mem h.not_mem_before]

/-- What a browser shows is cut by the span as the text is. -/
theorem displayed_eq (hpiece : '\r' ∉ piece) :
    displayed text = displayed (terminated ls ++ before) ++ piece ++ displayed rest := by
  rw [h.text_eq, Text.displayed_terminated_append h.not_mem_lines,
    Text.displayed_keep_append h.not_mem_before h.head?_ne h.head?_unixPairs_ne,
    Text.displayed_append hpiece, h.displayed_front_eq]
  simp only [List.append_assoc]

/-- In front of the span, the written text has a unit more than a browser shows for each line that
ends in two carriage returns. -/
theorem units_front_eq : units (terminated (ls.map dropReturn) ++ before)
    = units (displayed (terminated ls ++ before)) + ls.countP Text.endsTwice := by
  rw [h.displayed_front_eq, Text.units_append, Text.units_append, Text.units_map_feedReturn,
    Text.units_written_eq h.not_mem_lines]
  omega

end Cuts

end Span

/-! ## Where entries lie -/

namespace Page

open Location (Index edgeTitle unitRange)
open Location.Index (coversInside_of_mem_spans)
open Text (lines displayed units unixPairs doubledReturns)

/-- The range lies `k` units behind the place where a browser shows the excerpt of the span, if the
excerpt has no carriage return: the place starts where the browser shows the end of the text in
front of the span, and selects the excerpt. -/
def IsBehindPlace (text : List Char) (s : Span) (k : Nat) (range : Nat × Nat) : Prop :=
  ∀ excerpt, s.excerpt text = .ok excerpt → '\r' ∉ excerpt →
    ∃ first last place, s.offsets text = .ok (first, last)
      ∧ place.1 = units (displayed (text.take first)) ∧ Text.Selects (displayed text) place excerpt
      ∧ range = (place.1 + k, place.2 + k)

theorem isBehindPlace_unitRange {text piece : List Char} {s : Span}
    (h : s.CoversInside (lines text) piece) :
    IsBehindPlace text s (doubledReturns text s.line) (unitRange (unixPairs text) s) := by
  intro excerpt hexcerpt hreturn
  obtain rfl : piece = excerpt := Except.ok.inj (h.covers.excerpt.symm.trans hexcerpt)
  obtain ⟨ls, before, rest, hcuts⟩ := h.exists_cuts
  let front := displayed (Text.terminated ls ++ before)
  refine ⟨_, _, (units front, units (front ++ piece)), hcuts.offsets_eq, ?_, ?_, ?_⟩
  · rw [hcuts.take_eq]
  · rw [hcuts.displayed_eq hreturn]
    exact Text.selects_append front piece _
  · rw [hcuts.unitRange_unixPairs hreturn, hcuts.doubledReturns_eq, Text.units_append _ piece,
      Text.units_append front, hcuts.units_front_eq, Nat.add_right_comm]

/-- **Where the entries of a page lie in what a browser shows**, for every text, document, graph and
way of writing the page. The page exists and shows the text with line feeds for its pairs of
carriage return and line feed. The entry of a located node, and that of the last located edge with
a title, lies behind the place of its excerpt by as many units as lines in front of its span end in
two carriage returns. So it selects the excerpt in a text without two carriage returns in front of
a line feed. -/
theorem content_isBehindPlace (text : List Char) (d : Document) (graph : Graph) (o : Options) :
    let ix := Index.build text d
    ∃ c, content text graph ix o = .ok c ∧ generate text graph ix o = .ok (String.ofList c.render)
      ∧ c.text = unixPairs text
      ∧ (∀ id s, ix.node? id = some s → ∃ range, c.offsets.nodes.lookup id = some range
          ∧ IsBehindPlace text s (doubledReturns text s.line) range)
      ∧ (∀ before e after, ix.edges = before ++ e :: after →
          (∀ e' ∈ after, edgeTitle e'.1 ≠ edgeTitle e.1) →
          ∃ range, c.offsets.edges.lookup (edgeTitle e.1) = some range
            ∧ IsBehindPlace text e.2 (doubledReturns text e.2.line) range)
      ∧ (¬ ['\r', '\r', '\n'] <:+: text → ∀ s ∈ ix.spans, doubledReturns text s.line = 0) := by
  intro ix
  obtain ⟨offsets, hoffsets, hgenerate⟩ := exists_generate_eq text d graph o
  have hcontent : content text graph ix o = .ok (shown text graph offsets o) := by
    rw [content, hoffsets]
    rfl
  refine ⟨_, hcontent, hgenerate, rfl, ?_, ?_, ?_⟩
  · intro id s hs
    have hmem := Index.mem_nodes_build_iff.2 hs
    obtain ⟨piece, hcovers⟩ := coversInside_of_mem_spans
      (List.mem_append_left _ (List.mem_map_of_mem hmem))
    exact ⟨_, Index.lookup_offsets_nodes hoffsets hs, isBehindPlace_unitRange hcovers⟩
  · intro before e after hedges hlast
    have hmem : e ∈ ix.edges := hedges ▸ List.mem_append_right _ List.mem_cons_self
    obtain ⟨piece, hcovers⟩ := coversInside_of_mem_spans
      (List.mem_append_right _ (List.mem_map_of_mem hmem))
    exact ⟨_, Index.lookup_offsets_of_last hoffsets hedges hlast, isBehindPlace_unitRange hcovers⟩
  · intro hnot s hs
    obtain ⟨piece, hcovers⟩ := coversInside_of_mem_spans hs
    obtain ⟨line, hline, -⟩ := hcovers.covers.isWithin
    exact Text.doubledReturns_eq_zero hnot hline

/-- A document with one fact. -/
def lone : Document where
  title := "Attack Tree"
  theme := none
  facts := [⟨"a", "A", .fact, [], [], [], rfl⟩]
  attacks := []
  mitigations := []
  goals := []

/-- Behind a line that ends in two carriage returns, the entry selects the declaration but for its
first character, and the character behind it. -/
theorem not_selects_behind_returns :
    let text := "\r\r\nfacts:\n- a: A\n"
    let ix := Index.build text.toList lone
    Document.ofText text = .ok lone ∧ ∃ g, lone.compile .builtin none = .ok g
      ∧ ix.node? "a" = some ⟨2, 0, 4⟩
      ∧ Span.excerpt ⟨2, 0, 4⟩ text.toList = .ok "- a:".toList
      ∧ Text.Selects (displayed text.toList) (8, 12) "- a:".toList
      ∧ ∃ c, content text.toList g ix ⟨none, defaultSourceName, none, ""⟩ = .ok c
        ∧ c.offsets.nodes.lookup "a" = some (9, 13)
        ∧ ¬ Text.Selects (displayed text.toList) (9, 13) "- a:".toList := by
  intro text ix
  let g := Graph.draw "Attack Tree" (Registry.builtin.resolve none) lone.nodes
  let o : Options := ⟨none, defaultSourceName, none, ""⟩
  have hcompile : lone.compile .builtin none = .ok g :=
    Document.compile_eq_ok_iff.2 ⟨⟨by decide, by unfold Graph.Refers; decide⟩, rfl⟩
  have hoffsets : ix.offsets (unixPairs text.toList) = .ok ⟨[("a", 9, 13)], []⟩ := by
    decide +kernel
  have hcontent : content text.toList g ix o
      = .ok (shown text.toList g ⟨[("a", 9, 13)], []⟩ o) := by
    rw [content, hoffsets]
    rfl
  have hdisplayed : displayed text.toList
      = "\nfacts:\n".toList ++ "- a:".toList ++ " A\n".toList := by
    decide +kernel
  refine ⟨by decide +kernel, g, hcompile, by decide +kernel, by decide +kernel, ?_, _, hcontent,
    rfl, ?_⟩
  · rw [hdisplayed]
    exact Text.selects_append _ _ _
  · intro h
    have hslice := h.slice_eq
    rw [hdisplayed] at hslice
    revert hslice
    decide

end Page

end ThreatTree
