import ThreatTree.Location.Header
import ThreatTree.Proofs.Location.Line

/-!
# The scan for headers

The scan goes from line to line with a section and an indent in mind (`Scan`). What it finds
in two parts of a text is what it finds in the first part, followed by what it finds in the
second part with what it has in mind by then (`Scan.headers_append`). Headers are found in the
order of their lines, each once (`pairwise_line_headers`), and a header is a list item with
its id as the key (`exists_of_mem_headers`).
-/

namespace ThreatTree.Location

/-- What the scan has in mind in front of a line: the section, and the indent of the first list
item with a key in it. -/
structure Scan where
  current : Option Category
  indent : Option Nat

namespace Scan

/-- Nothing is in mind in front of the first line. -/
def start : Scan := ⟨none, none⟩

/-- What is in mind after a line. -/
def next (s : Scan) (line : List Char) : Scan :=
  match topLevelKey? line with
  | some key => ⟨sectionOf? key, none⟩
  | none =>
    match s.current, itemKey? line with
    | some category, some k => ⟨some category, some (s.indent.getD k.indent)⟩
    | _, _ => s

/-- The header that line `i` is. -/
def header? (s : Scan) (i : Nat) (line : List Char) : Option Header :=
  match topLevelKey? line with
  | some _ => none
  | none =>
    match s.current, itemKey? line with
    | some category, some k =>
      if k.indent = s.indent.getD k.indent then
        some ⟨i, k.indent, String.ofList k.id, category⟩
      else none
    | _, _ => none

/-- What is in mind after several lines. -/
def after (s : Scan) (lines : List (List Char)) : Scan := lines.foldl next s

/-- The headers from line `i` on. -/
def headers (s : Scan) (i : Nat) (lines : List (List Char)) : List Header :=
  headersFrom s.current s.indent i lines

@[simp] theorem headers_nil (s : Scan) (i : Nat) : s.headers i [] = [] := rfl

theorem headers_cons (s : Scan) (i : Nat) (line : List Char) (rest : List (List Char)) :
    s.headers i (line :: rest) =
      (s.header? i line).toList ++ (s.next line).headers (i + 1) rest := by
  obtain ⟨current, indent⟩ := s
  simp only [headers, headersFrom, header?, next]
  cases topLevelKey? line with
  | some key => rfl
  | none =>
    cases current with
    | none => rfl
    | some category =>
      cases itemKey? line with
      | none => rfl
      | some k =>
        dsimp only
        split <;> rfl

theorem after_cons (s : Scan) (line : List Char) (rest : List (List Char)) :
    s.after (line :: rest) = (s.next line).after rest := rfl

theorem after_append (s : Scan) (xs ys : List (List Char)) :
    s.after (xs ++ ys) = (s.after xs).after ys :=
  List.foldl_append

theorem headers_append (s : Scan) (i : Nat) (xs ys : List (List Char)) :
    s.headers i (xs ++ ys) = s.headers i xs ++ (s.after xs).headers (i + xs.length) ys := by
  induction xs generalizing s i with
  | nil => rfl
  | cons line xs ih =>
    rw [List.cons_append, headers_cons, headers_cons, after_cons, ih, List.append_assoc,
      List.length_cons, Nat.add_right_comm i 1, Nat.add_assoc i]

/-! ## Lines that are passed over -/

/-- The scan passes over a line that is no header and leaves what is in mind as it is. -/
structure Passes (s : Scan) (line : List Char) : Prop where
  header?_eq : ∀ i, s.header? i line = none
  next_eq : s.next line = s

theorem headers_of_passes {s : Scan} {lines : List (List Char)}
    (h : ∀ line ∈ lines, s.Passes line) (i : Nat) : s.headers i lines = [] := by
  induction lines generalizing i with
  | nil => rfl
  | cons line lines ih =>
    rw [List.forall_mem_cons] at h
    rw [headers_cons, h.1.header?_eq, h.1.next_eq, ih h.2]
    rfl

theorem after_of_passes {s : Scan} {lines : List (List Char)}
    (h : ∀ line ∈ lines, s.Passes line) : s.after lines = s := by
  induction lines with
  | nil => rfl
  | cons line lines ih =>
    rw [List.forall_mem_cons] at h
    rw [after_cons, h.1.next_eq, ih h.2]

/-! ## What a header is -/

theorem eq_of_header? {s : Scan} {i : Nat} {line : List Char} {h : Header}
    (hh : s.header? i line = some h) :
    h.line = i ∧ ∃ rest, itemKey? line = some ⟨h.indent, h.id.toList, rest⟩ := by
  unfold header? at hh
  split at hh
  · exact absurd hh (by simp)
  · split at hh
    · next k _ hk =>
      split at hh
      · obtain rfl := Option.some.inj hh
        exact ⟨rfl, k.after, by rw [hk, String.toList_ofList]⟩
      · exact absurd hh (by simp)
    · exact absurd hh (by simp)

theorem exists_of_mem_headers {s : Scan} {i : Nat} {lines : List (List Char)} {h : Header}
    (hh : h ∈ s.headers i lines) :
    ∃ j line rest, h.line = i + j ∧ lines[j]? = some line
      ∧ itemKey? line = some ⟨h.indent, h.id.toList, rest⟩ := by
  induction lines generalizing s i with
  | nil => simp at hh
  | cons line lines ih =>
    rw [headers_cons, List.mem_append, Option.mem_toList] at hh
    rcases hh with hh | hh
    · obtain ⟨hline, rest, hkey⟩ := eq_of_header? hh
      exact ⟨0, line, rest, hline, rfl, hkey⟩
    · obtain ⟨j, line', rest, hline, hget, hkey⟩ := ih hh
      exact ⟨j + 1, line', rest, by omega, by simpa using hget, hkey⟩

theorem le_line_of_mem_headers {s : Scan} {i : Nat} {lines : List (List Char)} {h : Header}
    (hh : h ∈ s.headers i lines) : i ≤ h.line := by
  obtain ⟨j, -, -, hline, -⟩ := exists_of_mem_headers hh
  omega

theorem pairwise_line_headers (s : Scan) (i : Nat) (lines : List (List Char)) :
    (s.headers i lines).Pairwise fun h h' => h.line < h'.line := by
  induction lines generalizing s i with
  | nil => exact List.Pairwise.nil
  | cons line lines ih =>
    rw [headers_cons]
    refine List.pairwise_append.2 ⟨?_, ih _ _, fun h hh h' hh' => ?_⟩
    · cases s.header? i line <;> simp
    · rw [(eq_of_header? (Option.mem_toList.1 hh)).1]
      exact le_line_of_mem_headers hh'

end Scan

/-! ## The headers of a text -/

theorem headers_eq (lines : List (List Char)) : headers lines = Scan.start.headers 0 lines := rfl

theorem exists_of_mem_headers {lines : List (List Char)} {h : Header}
    (hh : h ∈ headers lines) :
    ∃ line rest, lines[h.line]? = some line
      ∧ itemKey? line = some ⟨h.indent, h.id.toList, rest⟩ := by
  rw [headers_eq] at hh
  obtain ⟨j, line, rest, hline, hget, hkey⟩ := Scan.exists_of_mem_headers hh
  rw [Nat.zero_add] at hline
  exact ⟨line, rest, hline ▸ hget, hkey⟩

theorem pairwise_line_headers (lines : List (List Char)) :
    (headers lines).Pairwise fun h h' => h.line < h'.line :=
  Scan.pairwise_line_headers Scan.start 0 lines

end ThreatTree.Location
