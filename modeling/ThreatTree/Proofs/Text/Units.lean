import ThreatTree.Text.Units

/-!
# Selections in UTF-16 units

What a browser selects is a range of UTF-16 units. The units in front of a piece of a text and the
units up to its end are a range that selects the piece, and neither end of the range stands inside
a pair of surrogates (`selects_append`). This rests on one fact: no character ends in a high
surrogate (`exists_toUnits_eq`).
-/

namespace ThreatTree.Text

/-- The UTF-16 form of a text. -/
def encoded (s : List Char) : List Nat := s.flatMap toUnits

theorem encoded_append (s t : List Char) : encoded (s ++ t) = encoded s ++ encoded t :=
  List.flatMap_append

theorem length_encoded (s : List Char) : (encoded s).length = units s := by
  induction s with
  | nil => rfl
  | cons c s ih =>
    show (toUnits c ++ encoded s).length = charUnits c + units s
    rw [List.length_append, length_toUnits, ih]

/-! ## Pairs of surrogates -/

/-- The place stands between the two surrogates of a pair. -/
def IsInPair (us : List Nat) (i : Nat) : Prop :=
  ∃ before high low after, us = before ++ high :: low :: after ∧ before.length + 1 = i
    ∧ isHigh high = true ∧ isLow low = true

/-- A character ends in a unit that is no high surrogate. -/
theorem exists_toUnits_eq (c : Char) :
    ∃ us last, toUnits c = us ++ [last] ∧ isHigh last = false := by
  by_cases h : c.toNat < 0x10000
  · refine ⟨[], c.toNat, by simp [toUnits, h], ?_⟩
    have hv := c.valid
    simp only [UInt32.isValidChar, Nat.isValidChar, Char.toNat_val] at hv
    simp only [isHigh, Bool.and_eq_false_iff, decide_eq_false_iff_not]
    omega
  · refine ⟨[0xD800 + (c.toNat - 0x10000) / 0x400], 0xDC00 + (c.toNat - 0x10000) % 0x400,
      by simp [toUnits, h], ?_⟩
    simp only [isHigh, Bool.and_eq_false_iff, decide_eq_false_iff_not]
    omega

theorem isHigh_of_encoded_eq {s : List Char} {us : List Nat} {last : Nat}
    (h : encoded s = us ++ [last]) : isHigh last = false := by
  rcases List.eq_nil_or_concat s with rfl | ⟨front, c, rfl⟩
  · simp [encoded] at h
  · obtain ⟨us', last', hc, hlast⟩ := exists_toUnits_eq c
    have hsingle : encoded [c] = us' ++ [last'] := by
      rw [← hc]
      simp [encoded]
    rw [List.concat_eq_append, encoded_append, hsingle, ← List.append_assoc] at h
    obtain rfl : last' = last := by simpa using List.append_inj_right' h rfl
    exact hlast

/-- The end of a front of a text is not inside a pair. -/
theorem not_isInPair_units (s t : List Char) : ¬ IsInPair (encoded (s ++ t)) (units s) := by
  intro h
  obtain ⟨before, high, low, after, hparts, hlength, hhigh, -⟩ := h
  have hfront : encoded s = before ++ [high] := by
    have hsplit : encoded s ++ encoded t = (before ++ [high]) ++ low :: after := by
      rw [← encoded_append, hparts]
      simp
    apply List.append_inj_left hsplit
    rw [length_encoded, ← hlength, List.length_append, List.length_singleton]
  rw [isHigh_of_encoded_eq hfront] at hhigh
  contradiction

/-! ## Selections -/

/-- The range selects a piece of a text: its units are those of the piece, and neither of its ends
stands inside a pair of surrogates. -/
structure Selects (text : List Char) (range : Nat × Nat) (piece : List Char) : Prop where
  le : range.1 ≤ range.2
  le_units : range.2 ≤ units text
  slice_eq : ((encoded text).take range.2).drop range.1 = encoded piece
  not_isInPair_fst : ¬ IsInPair (encoded text) range.1
  not_isInPair_snd : ¬ IsInPair (encoded text) range.2

theorem selects_append (front piece back : List Char) :
    Selects (front ++ piece ++ back) (units front, units (front ++ piece)) piece := by
  constructor
  case le =>
    show units front ≤ units (front ++ piece)
    rw [units_append]
    exact Nat.le_add_right _ _
  case le_units =>
    show units (front ++ piece) ≤ units (front ++ piece ++ back)
    rw [units_append (front ++ piece)]
    exact Nat.le_add_right _ _
  case slice_eq =>
    show ((encoded (front ++ piece ++ back)).take (units (front ++ piece))).drop (units front)
      = encoded piece
    rw [encoded_append (front ++ piece), ← length_encoded (front ++ piece), List.take_left,
      encoded_append, ← length_encoded front, List.drop_left]
  case not_isInPair_fst =>
    rw [List.append_assoc]
    exact not_isInPair_units front (piece ++ back)
  case not_isInPair_snd => exact not_isInPair_units (front ++ piece) back

end ThreatTree.Text
