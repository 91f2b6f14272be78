import ThreatTree.Yaml.Cursor

/-!
# What is left at a place

The movements of a cursor, seen by what they leave of the text: `skip` drops characters, and
`takeWhile` and `dropWhile` drop the longest run. A line end is read exactly where a break stands
(`lineEnd?_eq_none_iff`, `lineEnd?_of_isBreak`).
-/

namespace ThreatTree.Yaml

/-! ## Gaps -/

theorem exists_cons_of_atGap {s : List Char} (h : atGap s = false) :
    ∃ ch rest, s = ch :: rest ∧ isSpace ch = false ∧ isBreak ch = false := by
  cases s with
  | nil => cases h
  | cons ch rest => exact ⟨ch, rest, rfl, Bool.or_eq_false_iff.1 h⟩

theorem isSpace_of_isBreak {ch : Char} (h : isBreak ch = true) : isSpace ch = false := by
  simp only [isBreak, Bool.or_eq_true, beq_iff_eq, or_assoc] at h
  rcases h with rfl | rfl | rfl | rfl | rfl <;> rfl

/-- No document mark starts with a break or a blank. -/
theorem atDocumentMark_of_isGap {ch : Char} (h : isGap ch = true) (rest : List Char) :
    atDocumentMark (ch :: rest) = false := by
  rw [atDocumentMark.eq_def]
  split
  · next heq => cases heq; exact absurd h (by decide)
  · next heq => cases heq; exact absurd h (by decide)
  · rfl

namespace Cursor

variable (c : Cursor) {ch : Char} {rest : List Char}

/-! ## Moving on -/

theorem rest_next : c.next.rest = c.rest.tail := by
  unfold next
  cases h : c.rest with
  | nil => exact h
  | cons ch rest =>
    dsimp only
    split
    · rfl
    · split <;> rfl

theorem rest_next_of_cons (h : c.rest = ch :: rest) : c.next.rest = rest := by
  rw [rest_next, h, List.tail_cons]

theorem rest_skip (n : Nat) : (c.skip n).rest = c.rest.drop n := by
  induction n generalizing c with
  | zero => rfl
  | succ n ih => rw [skip, ih, rest_next, List.drop_tail]

theorem rest_dropWhile (p : Char → Bool) : (c.dropWhile p).rest = c.rest.dropWhile p := by
  rw [dropWhile, takeWhile, rest_skip]
  conv => lhs; arg 2; rw [← List.takeWhile_append_dropWhile (p := p) (l := c.rest)]
  exact List.drop_left

/-- Nothing is dropped where the next character is of another kind. -/
theorem dropWhile_eq_self {p : Char → Bool} (h : c.rest.head?.any p = false) :
    c.dropWhile p = c := by
  have hrun : c.rest.takeWhile p = [] := by
    cases hrest : c.rest with
    | nil => rfl
    | cons ch rest =>
      rw [hrest] at h
      exact List.takeWhile_cons_of_neg (by simpa using h)
  rw [dropWhile, takeWhile, hrun]
  rfl

/-! ## Line ends -/

/-- No line end is read exactly where no break stands. -/
theorem lineEnd?_eq_none_iff : c.lineEnd? = none ↔ c.rest.head?.any isBreak = false := by
  unfold lineEnd?
  split
  · next h => simp [h, isBreak]
  · next ch rest _ h =>
    by_cases hsep : (ch == '\u2028' || ch == '\u2029') = true
    · rw [if_pos hsep]
      rw [Bool.or_eq_true, beq_iff_eq, beq_iff_eq] at hsep
      rcases hsep with rfl | rfl <;> simp [h, isBreak]
    · rw [if_neg hsep, h]
      simp
  · next h => simp [h]

/-- A break other than a carriage return is read as a line feed, unless it is a separator. -/
theorem lineEnd?_of_isBreak (h : c.rest = ch :: rest) (hbreak : isBreak ch = true)
    (hreturn : ch ≠ '\r') :
    c.lineEnd? = some (if ch == '\u2028' || ch == '\u2029' then ch else '\n', c.next) := by
  unfold lineEnd?
  split
  · next hr => exact absurd (List.cons.inj (h.symm.trans hr)).1 hreturn
  · next hr =>
    obtain ⟨rfl, rfl⟩ := List.cons.inj (h.symm.trans hr)
    rw [hbreak, if_pos rfl]
    split <;> rfl
  · next hr => rw [h] at hr; cases hr

/-- Where a text starts that is no gap, no line end is read. -/
theorem lineEnd?_of_atGap (h : atGap c.rest = false) : c.lineEnd? = none := by
  obtain ⟨ch, rest, hrest, -, hbreak⟩ := exists_cons_of_atGap h
  rw [lineEnd?_eq_none_iff, hrest]
  exact hbreak

end Cursor

end ThreatTree.Yaml
