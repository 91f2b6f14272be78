import ThreatTree.Proofs.Location.Partition

/-!
# Text in front of a text

Lines that open no section leave the scan for headers as it started, so the headers behind them are
those of the rest of the text, as many lines further down (`headers_append`). The ends of blocks
and the references in them depend only on the lines from the header on, and move with it
(`blockEnd_append`, `reference?_append`).

The main statement, `Index.build_moved`, says that the index of a text with other text in front of
it is the index of the text itself, moved.
-/

namespace ThreatTree

namespace Span

/-- The span some lines further down. -/
def moved (k : Nat) (s : Span) : Span := { s with line := s.line + k }

@[simp] theorem line_moved (k : Nat) (s : Span) : (s.moved k).line = s.line + k := rfl

/-- Behind some lines, a span has the same offsets, counted from their end. -/
theorem offsets_moved {ls : List (List Char)} (hfeed : ∀ line ∈ ls, '\n' ∉ line) {s : Span}
    {text : List Char} {first last : Nat} (h : s.offsets text = .ok (first, last)) :
    (s.moved ls.length).offsets (Text.terminated ls ++ text)
      = .ok (first + (Text.terminated ls).length, last + (Text.terminated ls).length) := by
  have hlt : s.line < (Text.lines text).length := by
    by_contra hnot
    simp [offsets, hnot] at h
  have hlines := Text.lines_terminated_append hfeed text
  have hlt' : (s.moved ls.length).line < (Text.lines (Text.terminated ls ++ text)).length := by
    rw [hlines, List.length_append, line_moved]
    omega
  rw [offsets_of_lt hlt] at h
  obtain ⟨rfl, rfl⟩ := Prod.mk.inj (Except.ok.inj h)
  have hstart : lineStart (s.moved ls.length).line (Text.lines (Text.terminated ls ++ text))
      = (Text.terminated ls).length + lineStart s.line (Text.lines text) := by
    rw [hlines, line_moved, Nat.add_comm s.line]
    exact lineStart_add_append ls _ _
  rw [offsets_of_lt hlt', hstart, moved]
  simp only [Except.ok.injEq, Prod.mk.injEq]
  omega

end Span

namespace Location

/-- The header some lines further down. -/
def Header.moved (k : Nat) (h : Header) : Header := { h with line := h.line + k }

@[simp] theorem Header.line_moved (k : Nat) (h : Header) : (h.moved k).line = h.line + k := rfl

@[simp] theorem Header.indent_moved (k : Nat) (h : Header) : (h.moved k).indent = h.indent := rfl

/-! ## Headers -/

/-- The section that a line opens, if it is the key of one. -/
def openedSection? (line : List Char) : Option Category := (topLevelKey? line).bind sectionOf?

namespace Scan

theorem header?_add (s : Scan) (i k : Nat) (line : List Char) :
    s.header? (i + k) line = (s.header? i line).map (Header.moved k) := by
  unfold header?
  cases topLevelKey? line with
  | some key => rfl
  | none =>
    cases s.current with
    | none => rfl
    | some category =>
      cases itemKey? line with
      | none => rfl
      | some item =>
        dsimp only
        split <;> rfl

theorem headers_add (s : Scan) (i k : Nat) (ls : List (List Char)) :
    s.headers (i + k) ls = (s.headers i ls).map (Header.moved k) := by
  induction ls generalizing s i with
  | nil => rfl
  | cons line ls ih =>
    rw [headers_cons, headers_cons, header?_add, Nat.add_right_comm, ih, List.map_append]
    cases s.header? i line <;> rfl

/-- In front of all sections, the scan passes over lines that open none. -/
theorem passes_start {line : List Char} (h : openedSection? line = none) :
    start.Passes line := by
  constructor
  case header?_eq =>
    intro i
    unfold header?
    cases topLevelKey? line <;> rfl
  case next_eq =>
    unfold next
    cases hkey : topLevelKey? line with
    | none => rfl
    | some key =>
      rw [openedSection?, hkey, Option.bind_some] at h
      show Scan.mk (sectionOf? key) none = start
      rw [h]
      rfl

end Scan

section Append

variable {front : List (List Char)} (ls : List (List Char))

theorem headers_append (hfront : ∀ line ∈ front, openedSection? line = none) :
    headers (front ++ ls) = (headers ls).map (Header.moved front.length) := by
  have hpasses : ∀ line ∈ front, Scan.start.Passes line := by
    intro line hline
    exact Scan.passes_start (hfront line hline)
  rw [headers_eq, headers_eq, Scan.headers_append, Scan.headers_of_passes hpasses,
    Scan.after_of_passes hpasses, List.nil_append, Scan.headers_add]

/-! ## Blocks -/

theorem blockLength_add (isHeader : Nat → Bool) (indent i k : Nat) :
    blockLength isHeader indent (i + k) ls
      = blockLength (fun j => isHeader (j + k)) indent i ls := by
  induction ls generalizing i with
  | nil => rfl
  | cons line ls ih => rw [blockLength, blockLength, Nat.add_right_comm, ih]

variable (front) (hs : List Header) (h : Header)

theorem drop_moved : (front ++ ls).drop ((h.moved front.length).line + 1)
    = ls.drop (h.line + 1) := by
  have hlength : (h.moved front.length).line + 1 = front.length + (h.line + 1) := by
    rw [Header.line_moved]
    omega
  rw [hlength, ← List.drop_drop, List.drop_left]

theorem blockEnd_append :
    blockEnd (front ++ ls) (hs.map (Header.moved front.length)) (h.moved front.length)
      = blockEnd ls hs h + front.length := by
  have hheader (j : Nat) : ((hs.map (Header.moved front.length)).any fun k =>
      k.line = j + front.length) = hs.any fun k => k.line = j := by
    rw [List.any_map]
    congr 1
    funext k
    simp [Header.moved]
  rw [blockEnd, drop_moved, Header.line_moved, Header.indent_moved, Nat.add_right_comm h.line,
    blockLength_add]
  simp only [hheader]
  rw [blockEnd, Nat.add_right_comm]

/-! ## References -/

theorem recordReference?_moved (id line : List Char) (k : Nat) :
    recordReference? id (h.moved k) line = (recordReference? id h line).map (Span.moved k) := by
  unfold recordReference?
  split
  · rfl
  · split
    · rw [Option.map_map]
      rfl
    · rfl

theorem lineReference?_add (id : List Char) (i k : Nat) (line : List Char) :
    lineReference? id (i + k) line = (lineReference? id i line).map (Span.moved k) := by
  unfold lineReference?
  split
  · rfl
  · rw [Option.map_map]
    rfl

theorem firstReference?_add (id : List Char) (i k : Nat) :
    firstReference? id (i + k) ls = (firstReference? id i ls).map (Span.moved k) := by
  induction ls generalizing i with
  | nil => rfl
  | cons line ls ih =>
    rw [firstReference?, firstReference?, lineReference?_add, Nat.add_right_comm, ih,
      Option.map_or]

theorem reference?_append (id : List Char) :
    reference? (front ++ ls) (hs.map (Header.moved front.length)) (h.moved front.length) id
      = (reference? ls hs h id).map (Span.moved front.length) := by
  have hline : (front ++ ls)[(h.moved front.length).line]? = ls[h.line]? := by
    rw [Header.line_moved, List.getElem?_append_right (Nat.le_add_left _ _), Nat.add_sub_cancel]
  have hblock : ((front ++ ls).take (blockEnd ls hs h + front.length)).drop
      ((h.moved front.length).line + 1) = (ls.take (blockEnd ls hs h)).drop (h.line + 1) := by
    rw [List.drop_take, List.drop_take, drop_moved, Header.line_moved]
    congr 1
    omega
  have hfirst : (h.moved front.length).line + 1 = h.line + 1 + front.length :=
    Nat.add_right_comm _ _ _
  rw [reference?, reference?, hline, blockEnd_append, hblock, hfirst, firstReference?_add,
    Option.map_or]
  congr 1
  cases ls[h.line]? with
  | none => rfl
  | some line => exact recordReference?_moved h id line _

end Append

/-! ## The index -/

namespace Index

/-- The index some lines further down. -/
def moved (k : Nat) (ix : Index) : Index where
  nodes := ix.nodes.map fun n => (n.1, n.2.moved k)
  edges := ix.edges.map fun e => (e.1, e.2.moved k)
  blocks := ix.blocks.map fun b => (b.1, b.2.1 + k, b.2.2 + k)

theorem header?_moved (hs : List Header) (k : Nat) (id : String) :
    header? (hs.map (Header.moved k)) id = (header? hs id).map (Header.moved k) := by
  rw [header?, header?, List.find?_map]
  rfl

theorem edgeSpan?_append (front ls : List (List Char)) (hs : List Header) (e : String × String) :
    edgeSpan? (front ++ ls) (hs.map (Header.moved front.length)) e
      = (edgeSpan? ls hs e).map (Span.moved front.length) := by
  rw [edgeSpan?, edgeSpan?, header?_moved]
  cases header? hs e.2 with
  | none => rfl
  | some h => exact reference?_append front ls hs h _

theorem build_terminated_append {front : List (List Char)} (hfeed : ∀ line ∈ front, '\n' ∉ line)
    (hfront : ∀ line ∈ front, openedSection? line = none) (text : List Char) (d : Document) :
    build (Text.terminated front ++ text) d = (build text d).moved front.length := by
  have hlines := Text.lines_terminated_append hfeed text
  have hheaders := headers_append (Text.lines text) hfront
  have hblock (id : String) (h : Header) :
      (id, (h.moved front.length).line, blockEnd (front ++ Text.lines text)
        ((headers (Text.lines text)).map (Header.moved front.length)) (h.moved front.length))
      = (id, h.line + front.length,
        blockEnd (Text.lines text) (headers (Text.lines text)) h + front.length) := by
    rw [blockEnd_append, Header.line_moved]
  rw [build, build, moved, hlines, hheaders]
  simp only [List.map_filterMap, header?_moved, edgeSpan?_append, Option.map_map,
    Function.comp_def, hblock]
  rfl

/-- **Spans move with the text.** Behind a text that ends in a line feed and opens no section, the
index of a text is the index of the text itself, as many lines further down as there are line feeds
in front, for every document. The offsets of its spans are counted from the end of what stands in
front. -/
theorem build_moved {front : List Char} (hend : front.getLast? = some '\n')
    (hfront : ∀ line ∈ Text.lines front, openedSection? line = none) (text : List Char)
    (d : Document) :
    let k := front.count '\n'
    build (front ++ text) d = (build text d).moved k
      ∧ ∀ s ∈ (build text d).spans, ∃ first last, s.offsets text = .ok (first, last)
        ∧ (s.moved k).offsets (front ++ text)
          = .ok (first + front.length, last + front.length) := by
  intro k
  obtain ⟨ls, rfl, hlines, hcount, hfeed⟩ := Text.exists_terminated hend
  have hk : k = ls.length := hcount
  rw [hk]
  constructor
  · apply build_terminated_append hfeed
    intro line hline
    apply hfront
    rw [hlines]
    exact List.mem_append_left _ hline
  · intro s hs
    obtain ⟨piece, hcovers⟩ := coversInside_of_mem_spans hs
    obtain ⟨line, hline, -⟩ := hcovers.covers.isWithin
    have hlt : s.line < (Text.lines text).length := (List.getElem?_eq_some_iff.1 hline).1
    exact ⟨_, _, Span.offsets_of_lt hlt, Span.offsets_moved hfeed (Span.offsets_of_lt hlt)⟩

/-- A fact, and an attack that follows from it. -/
def following : Document where
  title := "Attack Tree"
  theme := none
  facts := [⟨"well", "A", .fact, [], [], [], rfl⟩]
  attacks := [⟨"rope", "B", .attack, ["well"], [], [], rfl⟩]
  mitigations := []
  goals := []

/-- Neither a comment nor the list of another key is taken for a section. -/
theorem build_moved_behind_notes :
    let front := "# facts: below\nnotes:\n- well: note\n- from: [well]\n".toList
    let text := "facts:\n- well: A\nattacks:\n- rope: B\n  from:\n  - well\n".toList
    front.getLast? = some '\n' ∧ (∀ line ∈ Text.lines front, openedSection? line = none)
      ∧ (build text following).edge? "well" "rope" = some ⟨5, 2, 6⟩
      ∧ (build (front ++ text) following).edge? "well" "rope" = some ⟨9, 2, 6⟩
      ∧ ∃ first last, Span.offsets ⟨5, 2, 6⟩ text = .ok (first, last)
        ∧ Span.offsets ⟨9, 2, 6⟩ (front ++ text) = .ok (first + 50, last + 50) := by
  intro front text
  have hend : front.getLast? = some '\n' := by decide
  have hfront : ∀ line ∈ Text.lines front, openedSection? line = none := by decide +kernel
  obtain ⟨hmoved, hoffsets⟩ := build_moved hend hfront text following
  refine ⟨hend, hfront, by decide +kernel, ?_, hoffsets ⟨5, 2, 6⟩ (by decide +kernel)⟩
  rw [hmoved]
  decide +kernel

end Index

end Location

end ThreatTree
