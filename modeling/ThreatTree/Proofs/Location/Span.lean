import ThreatTree.Location.Span
import ThreatTree.Proofs.Text.Returns

/-!
# What a span covers

A span covers a piece of text if it stands in one of the lines and the characters there are
that piece. Then its excerpt is the piece (`Covers.excerpt`), so the offsets of a span may be
forgotten once its line and column are known to be right.
-/

namespace ThreatTree.Span

/-- The characters of the span, in its line, are `piece`. -/
def Covers (s : Span) (lines : List (List Char)) (piece : List Char) : Prop :=
  ∃ before after, lines[s.line]? = some (before ++ piece ++ after)
    ∧ before.length = s.column ∧ piece.length = s.length

/-- The span covers a piece in front of the end of its line, carriage returns apart. -/
def CoversInside (s : Span) (lines : List (List Char)) (piece : List Char) : Prop :=
  ∃ before after, lines[s.line]? = some (before ++ piece ++ after)
    ∧ before.length = s.column ∧ piece.length = s.length ∧ ∃ c ∈ piece ++ after, c ≠ '\r'

theorem CoversInside.covers {s : Span} {lines : List (List Char)} {piece : List Char}
    (h : s.CoversInside lines piece) : s.Covers lines piece := by
  obtain ⟨before, after, hline, hcolumn, hlength, -⟩ := h
  exact ⟨before, after, hline, hcolumn, hlength⟩

theorem Covers.inside {s : Span} {lines : List (List Char)} {piece : List Char}
    (h : s.Covers lines piece) {c : Char} (hmem : c ∈ piece) (hc : c ≠ '\r') :
    s.CoversInside lines piece := by
  obtain ⟨before, after, hline, hcolumn, hlength⟩ := h
  exact ⟨before, after, hline, hcolumn, hlength, c, List.mem_append_left after hmem, hc⟩

/-- The span does not leave its line. -/
def IsWithin (s : Span) (lines : List (List Char)) : Prop :=
  ∃ line, lines[s.line]? = some line ∧ s.column + s.length ≤ line.length

theorem Covers.isWithin {s : Span} {lines : List (List Char)} {piece : List Char}
    (h : s.Covers lines piece) : s.IsWithin lines := by
  obtain ⟨before, after, hline, hcolumn, hlength⟩ := h
  refine ⟨_, hline, ?_⟩
  simp only [List.length_append]
  omega

/-! ## Offsets of lines -/

/-- From the start of a line on, a text is the line and something more. -/
theorem drop_lineStart {lines : List (List Char)} {i : Nat} {line : List Char}
    (h : lines[i]? = some line) :
    ∃ rest, (Text.join ['\n'] lines).drop (lineStart i lines) = line ++ rest := by
  induction lines generalizing i with
  | nil => simp at h
  | cons l ls ih =>
    cases i with
    | zero =>
      obtain rfl : l = line := by simpa using h
      rw [lineStart, List.drop_zero]
      cases ls with
      | nil => exact ⟨[], (List.append_nil l).symm⟩
      | cons l' ls => exact ⟨'\n' :: Text.join ['\n'] (l' :: ls), by simp [Text.join]⟩
    | succ i =>
      rw [List.getElem?_cons_succ] at h
      obtain ⟨rest, hrest⟩ := ih h
      have hne : ls ≠ [] := by rintro rfl; simp at h
      refine ⟨rest, ?_⟩
      rw [lineStart, Text.join_cons hne, ← List.drop_drop, ← hrest]
      congr 1
      rw [List.drop_append_of_le_length (by simp), List.drop_eq_nil_of_le (by simp),
        List.nil_append]

/-- A line ends inside the text. -/
theorem lineStart_add_length_le {lines : List (List Char)} {i : Nat} {line : List Char}
    (h : lines[i]? = some line) :
    lineStart i lines + line.length ≤ (Text.join ['\n'] lines).length := by
  induction lines generalizing i with
  | nil => simp at h
  | cons l ls ih =>
    cases i with
    | zero =>
      obtain rfl : l = line := by simpa using h
      rw [lineStart]
      cases ls with
      | nil => simp [Text.join]
      | cons l' ls => simp [Text.join]
    | succ i =>
      rw [List.getElem?_cons_succ] at h
      have hne : ls ≠ [] := by rintro rfl; simp at h
      have hrest := ih h
      rw [lineStart, Text.join_cons hne]
      simp only [List.length_append, List.length_singleton]
      omega

/-- Behind some lines, a line starts as many characters later as they have, line feeds included. -/
theorem lineStart_add_append (ls more : List (List Char)) (i : Nat) :
    lineStart (ls.length + i) (ls ++ more) = (Text.terminated ls).length + lineStart i more := by
  induction ls with
  | nil => simp [Text.terminated]
  | cons line ls ih =>
    rw [List.length_cons, List.cons_append, Nat.add_right_comm, lineStart, ih,
      Text.terminated_cons, List.length_append, List.length_cons]
    omega

theorem lineStart_append (ls more : List (List Char)) :
    lineStart ls.length (ls ++ more) = (Text.terminated ls).length :=
  lineStart_add_append ls more 0

theorem slice_eq_take_drop (text : List Char) (first length : Nat) :
    slice text first (first + length) = (text.drop first).take length := by
  rw [slice, List.drop_take, Nat.add_sub_cancel_left]

/-! ## Excerpts -/

theorem offsets_of_lt {s : Span} {text : List Char} (h : s.line < (Text.lines text).length) :
    s.offsets text = .ok (lineStart s.line (Text.lines text) + s.column,
      lineStart s.line (Text.lines text) + s.column + s.length) := by
  simp only [offsets, if_pos h]

/-- The excerpt of a span is the piece that it covers. -/
theorem Covers.excerpt {s : Span} {text piece : List Char}
    (h : s.Covers (Text.lines text) piece) : s.excerpt text = .ok piece := by
  obtain ⟨before, after, hline, hcolumn, hlength⟩ := h
  have hlt : s.line < (Text.lines text).length := (List.getElem?_eq_some_iff.1 hline).1
  obtain ⟨rest, hrest⟩ := drop_lineStart hline
  rw [Text.lines, Text.join_splitOn] at hrest
  rw [Span.excerpt, offsets_of_lt hlt]
  show Except.ok (slice text _ (_ + s.length)) = _
  rw [slice_eq_take_drop, ← List.drop_drop, Text.lines, hrest, ← hcolumn, ← hlength,
    List.append_assoc, List.append_assoc, List.drop_left, List.take_left]

/-! ## Places -/

/-- From one offset to another that is not before it and not after the end of the text. -/
def IsPlace (text : List Char) (p : Nat × Nat) : Prop := p.1 ≤ p.2 ∧ p.2 ≤ text.length

/-- The offsets of a span that covers a piece are a place in the text where the piece stands. -/
theorem Covers.offsets {s : Span} {text piece : List Char}
    (h : s.Covers (Text.lines text) piece) :
    ∃ p, s.offsets text = .ok p ∧ IsPlace text p ∧ slice text p.1 p.2 = piece := by
  obtain ⟨line, hline, hwithin⟩ := h.isWithin
  have hlt : s.line < (Text.lines text).length := (List.getElem?_eq_some_iff.1 hline).1
  have hexcerpt := h.excerpt
  rw [Span.excerpt, offsets_of_lt hlt] at hexcerpt
  refine ⟨_, offsets_of_lt hlt, ⟨Nat.le_add_right _ _, ?_⟩, Except.ok.inj hexcerpt⟩
  have hend := lineStart_add_length_le hline
  rw [Text.lines, Text.join_splitOn] at hend
  show lineStart s.line (Text.splitOn '\n' text) + s.column + s.length ≤ text.length
  omega

end ThreatTree.Span
