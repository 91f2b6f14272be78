import Mathlib.Data.List.Forall2
import ThreatTree.Text.Lines

/-!
# Line ends

A text has the same lines with either kind of line end, but for the carriage return that may
stand at the end of a line (`forall₂_lines_dosPairs`). Pairs that become line feeds leave the
number of lines as it is (`length_lines_unixPairs`), and bring back a text that was written with
pairs (`unixPairs_dosPairs`).
-/

namespace ThreatTree.Text

/-- The second line is the first, perhaps with a carriage return at its end. -/
def MayReturn (line line' : List Char) : Prop := line' = line ∨ line' = line ++ ['\r']

/-- What makes no difference to a line with a carriage return makes none to lines that may
have one. -/
theorem MayReturn.congr {α : Type} {f : List Char → α} {line line' : List Char}
    (h : MayReturn line line') (hf : f (line ++ ['\r']) = f line) : f line' = f line := by
  rcases h with rfl | rfl
  · rfl
  · exact hf

/-! ## Lines of a text -/

theorem lines_lineFeed_cons (s : List Char) : lines ('\n' :: s) = [] :: lines s := by
  rw [lines, splitOn, if_pos rfl, lines]

/-- A character that ends no line is the first one of its line. -/
theorem lines_cons {c : Char} (h : c ≠ '\n') (s : List Char) :
    ∃ line rest, lines s = line :: rest ∧ lines (c :: s) = (c :: line) :: rest := by
  cases hs : splitOn '\n' s with
  | nil => exact absurd hs (splitOn_ne_nil '\n' s)
  | cons line rest =>
    refine ⟨line, rest, hs, ?_⟩
    rw [lines, splitOn, if_neg h, hs]

theorem length_lines_cons {c : Char} (h : c ≠ '\n') (s : List Char) :
    (lines (c :: s)).length = (lines s).length := by
  obtain ⟨line, rest, hs, hcons⟩ := lines_cons h s
  rw [hcons, hs, List.length_cons, List.length_cons]

/-! ## Line feeds that become pairs -/

theorem dosPairs_lineFeed_cons (s : List Char) :
    dosPairs ('\n' :: s) = '\r' :: '\n' :: dosPairs s := rfl

theorem dosPairs_cons {c : Char} (h : c ≠ '\n') (s : List Char) :
    dosPairs (c :: s) = c :: dosPairs s := by
  rw [dosPairs, List.flatMap_cons, if_neg h, List.singleton_append, dosPairs]

/-- A text has the same lines when its line feeds become pairs, but for carriage returns. -/
theorem forall₂_lines_dosPairs (s : List Char) :
    List.Forall₂ MayReturn (lines s) (lines (dosPairs s)) := by
  induction s with
  | nil => exact .cons (.inl rfl) .nil
  | cons c s ih =>
    by_cases hc : c = '\n'
    · subst hc
      have hreturn : lines ('\r' :: '\n' :: dosPairs s) = ['\r'] :: lines (dosPairs s) := by
        obtain ⟨line, rest, hs, hcons⟩ := lines_cons (by decide : '\r' ≠ '\n')
          ('\n' :: dosPairs s)
        rw [lines_lineFeed_cons] at hs
        obtain ⟨rfl, rfl⟩ := List.cons.inj hs
        exact hcons
      rw [lines_lineFeed_cons, dosPairs_lineFeed_cons, hreturn]
      exact .cons (.inr rfl) ih
    · obtain ⟨line, rest, hs, hcons⟩ := lines_cons hc s
      obtain ⟨line', rest', hs', hcons'⟩ := lines_cons hc (dosPairs s)
      rw [hs, hs'] at ih
      rw [dosPairs_cons hc, hcons, hcons']
      cases ih with
      | cons hline hrest =>
        refine .cons ?_ hrest
        rcases hline with rfl | rfl
        · exact .inl rfl
        · exact .inr rfl

/-! ## Pairs that become line feeds -/

theorem unixPairs_cons {c : Char} (h : c ≠ '\r') (s : List Char) :
    unixPairs (c :: s) = c :: unixPairs s := by
  rw [unixPairs]
  intro rest hc
  exact absurd hc h

theorem unixPairs_append {s : List Char} (h : '\r' ∉ s) (t : List Char) :
    unixPairs (s ++ t) = s ++ unixPairs t := by
  induction s with
  | nil => rfl
  | cons c s ih =>
    rw [List.mem_cons, not_or] at h
    rw [List.cons_append, unixPairs_cons (Ne.symm h.1), ih h.2, List.cons_append]

theorem unixPairs_of_not_mem {s : List Char} (h : '\r' ∉ s) : unixPairs s = s := by
  have happend := unixPairs_append h []
  rwa [List.append_nil, unixPairs, List.append_nil] at happend

/-- A text without carriage returns comes back. -/
theorem unixPairs_dosPairs {s : List Char} (h : '\r' ∉ s) : unixPairs (dosPairs s) = s := by
  induction s with
  | nil => rfl
  | cons c s ih =>
    rw [List.mem_cons, not_or] at h
    by_cases hc : c = '\n'
    · rw [hc, dosPairs_lineFeed_cons, unixPairs, ih h.2]
    · rw [dosPairs_cons hc, unixPairs_cons (Ne.symm h.1), ih h.2]

theorem length_lines_unixPairs (s : List Char) :
    (lines (unixPairs s)).length = (lines s).length := by
  fun_induction unixPairs s with
  | case1 rest ih =>
    rw [lines_lineFeed_cons, length_lines_cons (by decide), lines_lineFeed_cons,
      List.length_cons, List.length_cons, ih]
  | case2 c rest _ ih =>
    by_cases hc : c = '\n'
    · rw [hc, lines_lineFeed_cons, lines_lineFeed_cons, List.length_cons, List.length_cons, ih]
    · rw [length_lines_cons hc, length_lines_cons hc, ih]
  | case3 => rfl

end ThreatTree.Text
