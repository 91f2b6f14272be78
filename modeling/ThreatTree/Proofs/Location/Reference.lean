import ThreatTree.Location.Index
import ThreatTree.Proofs.Location.Header
import ThreatTree.Proofs.Location.Span

/-!
# Where references are found

A reference is found in one of two places: in the record on the line of the header, or on a later
line of the block (`reference?_cases`). What is found covers one of the ways to write the
reference, in a line of the block that was looked at (`coversInside_of_reference?`).
-/

namespace ThreatTree.Location

/-! ## In one line -/

/-- A reference on a line is a list item, or else an item in brackets. -/
theorem lineReference?_cases {id line : List Char} {i : Nat} {s : Span}
    (h : lineReference? id i line = some s) :
    (∃ r, itemReference? id line = some r
        ∧ s = ⟨i, r.indent, id.length + if r.quoted then 4 else 2⟩)
      ∨ ∃ column, bracketReference? none 0 id line = some column ∧ s = ⟨i, column, id.length⟩ := by
  unfold lineReference? at h
  split at h
  · next r hr => exact .inl ⟨r, hr, (Option.some.inj h).symm⟩
  · obtain ⟨column, hcolumn, rfl⟩ := Option.map_eq_some_iff.1 h
    exact .inr ⟨column, hcolumn, rfl⟩

/-- A reference in a record is an item in brackets behind the key. -/
theorem exists_of_recordReference? {id line : List Char} {h : Header} {s : Span}
    (hs : recordReference? id h line = some s) :
    ∃ k column, itemKey? line = some k
      ∧ bracketReference? (some ':') (line.length - k.after.length) id k.after = some column
      ∧ s = ⟨h.line, column, id.length⟩ := by
  unfold recordReference? at hs
  split at hs
  · exact absurd hs (by simp)
  · next k hk =>
    split at hs
    · obtain ⟨column, hcolumn, rfl⟩ := Option.map_eq_some_iff.1 hs
      exact ⟨k, column, hk, hcolumn, rfl⟩
    · exact absurd hs (by simp)

theorem coversInside_of_lineReference? {lines : List (List Char)} {id line : List Char} {i : Nat}
    {s : Span} (hline : lines[i]? = some line) (h : lineReference? id i line = some s) :
    ∃ piece ∈ referenceTexts id, s.CoversInside lines piece := by
  rcases lineReference?_cases h with ⟨r, hr, rfl⟩ | ⟨column, hcolumn, rfl⟩
  · obtain ⟨name, hname, after, hparts, -, hindent, hlength⟩ := exists_name_of_itemReference? hr
    refine ⟨['-', ' '] ++ name, mem_referenceTexts_of_mem_names hname,
      Text.margin line, after, ?_, hindent, ?_, '-', by simp, by decide⟩
    · rw [List.append_assoc]
      exact hline.trans (congrArg some hparts)
    · rw [← hlength, List.length_append]
      exact Nat.add_comm 2 name.length
  · obtain ⟨before, after, rfl, rfl, -, hclosed⟩ := exists_of_bracketReference? hcolumn
    exact ⟨id, by simp [referenceTexts], before, after, hline, (Nat.zero_add _).symm, rfl, ']',
      List.mem_append_right id hclosed, by decide⟩

theorem coversInside_of_recordReference? {lines : List (List Char)} {id line : List Char}
    {h : Header} {s : Span} (hline : lines[h.line]? = some line)
    (hs : recordReference? id h line = some s) : s.CoversInside lines id := by
  obtain ⟨k, column, hk, hcolumn, rfl⟩ := exists_of_recordReference? hs
  obtain ⟨before, after, hafter, rfl, -, hclosed⟩ := exists_of_bracketReference? hcolumn
  obtain ⟨margin, hparts, -⟩ := itemKey?_eq_some_iff.1 hk
  refine ⟨margin ++ ['-', ' '] ++ k.id ++ ':' :: before, after, ?_, ?_, rfl, ']',
    List.mem_append_right id hclosed, by decide⟩
  · rw [hline, hparts, hafter]
    simp
  · rw [hparts]
    simp only [List.length_append, List.length_cons, List.length_nil]
    omega

/-! ## In a block -/

theorem exists_of_firstReference? {id : List Char} {i : Nat} {block : List (List Char)}
    {s : Span} (h : firstReference? id i block = some s) :
    ∃ j line, block[j]? = some line ∧ lineReference? id (i + j) line = some s := by
  induction block generalizing i with
  | nil => simp [firstReference?] at h
  | cons line block ih =>
    rw [firstReference?, Option.or_eq_some_iff] at h
    rcases h with h | ⟨-, h⟩
    · exact ⟨0, line, rfl, h⟩
    · obtain ⟨j, line', hget, hs⟩ := ih h
      exact ⟨j + 1, line', by simpa using hget, by rwa [Nat.add_assoc, Nat.add_comm 1] at hs⟩

/-- The lines of a block are lines of the text. -/
theorem getElem?_of_block {lines : List (List Char)} {first last j : Nat} {line : List Char}
    (h : ((lines.take last).drop first)[j]? = some line) :
    first + j < last ∧ lines[first + j]? = some line := by
  rw [List.getElem?_drop, List.getElem?_take] at h
  split at h
  · next hlast => exact ⟨hlast, h⟩
  · exact absurd h (by simp)

/-- A reference stands in the record of the header, or on a later line of the block. -/
theorem reference?_cases {lines : List (List Char)} {hs : List Header} {h : Header}
    {id : List Char} {s : Span} (href : reference? lines hs h id = some s) :
    (∃ line, lines[h.line]? = some line ∧ recordReference? id h line = some s)
      ∨ ∃ i line, h.line < i ∧ i < blockEnd lines hs h ∧ lines[i]? = some line
          ∧ lineReference? id i line = some s := by
  rw [reference?, Option.or_eq_some_iff] at href
  rcases href with href | ⟨-, href⟩
  · exact .inl (Option.bind_eq_some_iff.1 href)
  · obtain ⟨j, line, hget, href⟩ := exists_of_firstReference? href
    obtain ⟨hlast, hline⟩ := getElem?_of_block hget
    exact .inr ⟨h.line + 1 + j, line, by omega, hlast, hline, href⟩

/-- **A reference that is found is written there.** -/
theorem coversInside_of_reference? {lines : List (List Char)} {hs : List Header} {h : Header}
    {id : List Char} {s : Span} (href : reference? lines hs h id = some s) :
    ∃ piece ∈ referenceTexts id, s.CoversInside lines piece := by
  rcases reference?_cases href with ⟨line, hline, href⟩ | ⟨i, line, -, -, hline, href⟩
  · exact ⟨id, by simp [referenceTexts], coversInside_of_recordReference? hline href⟩
  · exact coversInside_of_lineReference? hline href

theorem covers_of_reference? {lines : List (List Char)} {hs : List Header} {h : Header}
    {id : List Char} {s : Span} (href : reference? lines hs h id = some s) :
    ∃ piece ∈ referenceTexts id, s.Covers lines piece := by
  obtain ⟨piece, hpiece, hcovers⟩ := coversInside_of_reference? href
  exact ⟨piece, hpiece, hcovers.covers⟩

end ThreatTree.Location
