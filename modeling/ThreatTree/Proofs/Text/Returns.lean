import ThreatTree.Proofs.Text.LineEnd
import ThreatTree.Proofs.Text.Pieces
import ThreatTree.Text.Units

/-!
# Carriage returns that become line feeds

Where a text is written with line feeds for its pairs of carriage return and line feed, a line
loses the carriage return at its end (`unixPairs_line`). A browser then makes a line feed of every
line end that is left, a lone carriage return too (`unixLines_line`); `displayed` is what comes out.

A line that ends in two carriage returns still ends in a pair when it is written, so the browser
shows it one unit shorter than it is written. Nothing else changes the number of units
(`units_written_eq`).
-/

namespace ThreatTree.Text

/-! ## Lines with line feeds behind them -/

/-- The lines, each with a line feed behind it. -/
def terminated (ls : List (List Char)) : List Char := ls.flatMap (· ++ ['\n'])

theorem terminated_cons (line : List Char) (ls : List (List Char)) :
    terminated (line :: ls) = line ++ '\n' :: terminated ls := by
  simp [terminated]

theorem terminated_cons_append (line : List Char) (ls : List (List Char)) (t : List Char) :
    terminated (line :: ls) ++ t = line ++ '\n' :: (terminated ls ++ t) := by
  simp [terminated]

theorem lines_terminated_append {ls : List (List Char)} (h : ∀ line ∈ ls, '\n' ∉ line)
    (t : List Char) : lines (terminated ls ++ t) = ls ++ lines t := by
  induction ls with
  | nil => rfl
  | cons line ls ih =>
    rw [List.forall_mem_cons] at h
    rw [terminated_cons_append, lines, splitOn_append h.1]
    exact congrArg (line :: ·) (ih h.2)

theorem terminated_eq_join {ls : List (List Char)} (h : ls ≠ []) :
    terminated ls = join ['\n'] ls ++ ['\n'] := by
  induction ls with
  | nil => exact absurd rfl h
  | cons line ls ih =>
    cases ls with
    | nil => exact terminated_cons line []
    | cons line' ls =>
      have hne : line' :: ls ≠ [] := List.cons_ne_nil line' ls
      rw [terminated_cons, ih hne, join_cons hne]
      simp

theorem terminated_lines (s : List Char) : terminated (lines s) = s ++ ['\n'] := by
  have hjoin := join_splitOn '\n' s
  rw [lines, terminated_eq_join (splitOn_ne_nil '\n' s), hjoin]

theorem count_terminated {ls : List (List Char)} (h : ∀ line ∈ ls, '\n' ∉ line) :
    (terminated ls).count '\n' = ls.length := by
  induction ls with
  | nil => rfl
  | cons line ls ih =>
    rw [List.forall_mem_cons] at h
    rw [terminated_cons, List.count_append, List.count_eq_zero_of_not_mem h.1,
      List.count_cons_self, ih h.2, Nat.zero_add, List.length_cons]

/-- A text that ends in a line feed is made of lines with line feeds behind them. -/
theorem exists_terminated {s : List Char} (h : s.getLast? = some '\n') :
    ∃ ls, s = terminated ls ∧ lines s = ls ++ [[]] ∧ s.count '\n' = ls.length
      ∧ ∀ line ∈ ls, '\n' ∉ line := by
  obtain ⟨front, rfl⟩ := List.getLast?_eq_some_iff.1 h
  have hfeed : ∀ line ∈ lines front, '\n' ∉ line := fun line => not_mem_of_mem_splitOn
  refine ⟨lines front, (terminated_lines front).symm, ?_, ?_, hfeed⟩
  · have hlines := lines_terminated_append hfeed []
    rwa [terminated_lines, List.append_nil] at hlines
  · rw [← terminated_lines, count_terminated hfeed]

/-- In front of a line, a text has the lines before it, and behind the line it ends or has a line
feed. -/
theorem exists_of_getElem?_lines {s line : List Char} {i : Nat} (h : (lines s)[i]? = some line) :
    ∃ rest, s = terminated ((lines s).take i) ++ (line ++ rest)
      ∧ (rest = [] ∨ ∃ more, rest = '\n' :: more) := by
  have hjoin (ls : List (List Char)) (i : Nat) (hi : ls[i]? = some line) :
      ∃ rest, join ['\n'] ls = terminated (ls.take i) ++ (line ++ rest)
        ∧ (rest = [] ∨ ∃ more, rest = '\n' :: more) := by
    induction ls generalizing i with
    | nil => simp at hi
    | cons l ls ih =>
      cases i with
      | zero =>
        obtain rfl : l = line := by simpa using hi
        cases ls with
        | nil => exact ⟨[], by simp [join, terminated], .inl rfl⟩
        | cons l' ls =>
          exact ⟨'\n' :: join ['\n'] (l' :: ls), by simp [join, terminated], .inr ⟨_, rfl⟩⟩
      | succ i =>
        rw [List.getElem?_cons_succ] at hi
        obtain ⟨rest, hrest, hend⟩ := ih i hi
        have hne : ls ≠ [] := by
          intro hnil
          simp [hnil] at hi
        refine ⟨rest, ?_, hend⟩
        rw [join_cons hne, hrest, List.take_succ_cons, terminated_cons_append, List.append_assoc]
        rfl
  obtain ⟨rest, hrest, hend⟩ := hjoin (lines s) i h
  rw [lines, join_splitOn] at hrest
  exact ⟨rest, hrest, hend⟩

/-! ## A line that loses a carriage return -/

/-- The line without the carriage return at its end, if it has one. -/
def dropReturn (line : List Char) : List Char :=
  if line.getLast? = some '\r' then line.dropLast else line

theorem dropReturn_concat (line : List Char) (c : Char) :
    dropReturn (line ++ [c]) = if c = '\r' then line else line ++ [c] := by
  rw [dropReturn, List.getLast?_concat, List.dropLast_concat]
  simp only [Option.some.injEq]

theorem not_mem_dropReturn {c : Char} {line : List Char} (h : c ∉ line) : c ∉ dropReturn line := by
  intro hmem
  apply h
  rw [dropReturn] at hmem
  split at hmem
  · exact (List.dropLast_sublist line).subset hmem
  · exact hmem

/-- A character is kept if no line feed follows. -/
theorem unixPairs_keep (c : Char) {t : List Char} (h : t.head? ≠ some '\n') :
    unixPairs (c :: t) = c :: unixPairs t := by
  rw [unixPairs]
  intro rest _ ht
  apply h
  rw [ht, List.head?_cons]

theorem head?_append_ne {s t : List Char} {c : Char} (hs : c ∉ s) (ht : t.head? ≠ some c) :
    (s ++ t).head? ≠ some c := by
  cases s with
  | nil => exact ht
  | cons d s =>
    rw [List.mem_cons, not_or] at hs
    simpa using Ne.symm hs.1

theorem unixPairs_keep_append {s t : List Char} (hs : '\n' ∉ s) (ht : t.head? ≠ some '\n') :
    unixPairs (s ++ t) = s ++ unixPairs t := by
  induction s with
  | nil => rfl
  | cons c s ih =>
    rw [List.mem_cons, not_or] at hs
    rw [List.cons_append, unixPairs_keep c (head?_append_ne hs.2 ht), ih hs.2, List.cons_append]

/-- Written, a line loses the carriage return at its end. -/
theorem unixPairs_line {line : List Char} (h : '\n' ∉ line) (t : List Char) :
    unixPairs (line ++ '\n' :: t) = dropReturn line ++ '\n' :: unixPairs t := by
  rcases List.eq_nil_or_concat line with rfl | ⟨front, c, rfl⟩
  · exact unixPairs_cons (by decide) t
  · rw [List.concat_eq_append, List.mem_append, not_or, List.mem_singleton] at h
    rw [List.concat_eq_append, dropReturn_concat, List.append_assoc, List.singleton_append,
      unixPairs_keep_append h.1 (by simpa using Ne.symm h.2)]
    by_cases hc : c = '\r'
    · subst hc
      rw [if_pos rfl, unixPairs]
    · rw [if_neg hc, unixPairs_cons hc, unixPairs_cons (by decide), List.append_assoc]
      rfl

theorem unixPairs_terminated_append {ls : List (List Char)} (h : ∀ line ∈ ls, '\n' ∉ line)
    (t : List Char) :
    unixPairs (terminated ls ++ t) = terminated (ls.map dropReturn) ++ unixPairs t := by
  induction ls with
  | nil => rfl
  | cons line ls ih =>
    rw [List.forall_mem_cons] at h
    rw [terminated_cons_append, unixPairs_line h.1, ih h.2, List.map_cons, terminated_cons_append]

/-! ## What a browser shows -/

/-- A carriage return as a line feed. -/
def feedReturn (c : Char) : Char := if c = '\r' then '\n' else c

theorem unixLines_cons {c : Char} (h : c ≠ '\r') (t : List Char) :
    unixLines (c :: t) = c :: unixLines t := by
  rw [unixLines]
  · intro rest hc
    exact absurd hc h
  · exact h

theorem unixLines_of_not_mem {s : List Char} (h : '\r' ∉ s) : unixLines s = s := by
  induction s with
  | nil => rfl
  | cons c s ih =>
    rw [List.mem_cons, not_or] at h
    rw [unixLines_cons (Ne.symm h.1), ih h.2]

theorem unixLines_keep (c : Char) {t : List Char} (h : t.head? ≠ some '\n') :
    unixLines (c :: t) = feedReturn c :: unixLines t := by
  by_cases hc : c = '\r'
  · subst hc
    rw [unixLines]
    · rfl
    · intro rest ht
      apply h
      rw [ht, List.head?_cons]
  · rw [unixLines_cons hc, feedReturn, if_neg hc]

theorem unixLines_keep_append {s t : List Char} (hs : '\n' ∉ s) (ht : t.head? ≠ some '\n') :
    unixLines (s ++ t) = s.map feedReturn ++ unixLines t := by
  induction s with
  | nil => rfl
  | cons c s ih =>
    rw [List.mem_cons, not_or] at hs
    rw [List.cons_append, unixLines_keep c (head?_append_ne hs.2 ht), ih hs.2, List.map_cons,
      List.cons_append]

theorem unixLines_line {line : List Char} (h : '\n' ∉ line) (t : List Char) :
    unixLines (line ++ '\n' :: t)
      = (dropReturn line).map feedReturn ++ '\n' :: unixLines t := by
  rcases List.eq_nil_or_concat line with rfl | ⟨front, c, rfl⟩
  · exact unixLines_cons (by decide) t
  · rw [List.concat_eq_append, List.mem_append, not_or, List.mem_singleton] at h
    rw [List.concat_eq_append, dropReturn_concat, List.append_assoc, List.singleton_append,
      unixLines_keep_append h.1 (by simpa using Ne.symm h.2)]
    by_cases hc : c = '\r'
    · subst hc
      rw [if_pos rfl, unixLines]
    · rw [if_neg hc, unixLines_cons hc, unixLines_cons (by decide), List.map_append,
        List.append_assoc]
      simp [feedReturn, hc]

/-- A text as a browser shows it: it is written with line feeds for its pairs of carriage return
and line feed, and the browser makes a line feed of every line end that is left. -/
def displayed (s : List Char) : List Char := unixLines (unixPairs s)

theorem displayed_line {line : List Char} (h : '\n' ∉ line) (t : List Char) :
    displayed (line ++ '\n' :: t)
      = (dropReturn (dropReturn line)).map feedReturn ++ '\n' :: displayed t := by
  rw [displayed, unixPairs_line h, unixLines_line (not_mem_dropReturn h), displayed]

theorem displayed_terminated_append {ls : List (List Char)} (h : ∀ line ∈ ls, '\n' ∉ line)
    (t : List Char) :
    displayed (terminated ls ++ t) = displayed (terminated ls) ++ displayed t := by
  induction ls with
  | nil => rfl
  | cons line ls ih =>
    rw [List.forall_mem_cons] at h
    rw [terminated_cons_append, displayed_line h.1, ih h.2, terminated_cons, displayed_line h.1,
      List.append_assoc, List.cons_append]

/-- A text without carriage returns is shown as it is, whatever follows. -/
theorem displayed_append {s : List Char} (h : '\r' ∉ s) (t : List Char) :
    displayed (s ++ t) = s ++ displayed t := by
  rw [displayed, unixPairs_append h]
  induction s with
  | nil => rfl
  | cons c s ih =>
    rw [List.mem_cons, not_or] at h
    rw [List.cons_append, unixLines_cons (Ne.symm h.1), ih h.2, List.cons_append]

/-- A part of a line is shown as it is, carriage returns apart, if neither the text behind it nor
that text as it is written starts with a line feed. -/
theorem displayed_keep_append {s t : List Char} (hs : '\n' ∉ s) (ht : t.head? ≠ some '\n')
    (ht' : (unixPairs t).head? ≠ some '\n') :
    displayed (s ++ t) = s.map feedReturn ++ displayed t := by
  rw [displayed, unixPairs_keep_append hs ht, unixLines_keep_append hs ht', displayed]

theorem displayed_of_not_mem {s : List Char} (h : '\n' ∉ s) : displayed s = s.map feedReturn := by
  have hkeep := displayed_keep_append (t := []) h (by simp) (by simp [unixPairs])
  have hnil : displayed [] = [] := rfl
  rwa [List.append_nil, hnil, List.append_nil] at hkeep

/-- A part of a line that is not carriage returns alone does not start with a line feed, and still
does not when it is written. -/
theorem head?_unixPairs_ne {s : List Char} (hs : '\n' ∉ s) (hother : ∃ c ∈ s, c ≠ '\r')
    (t : List Char) :
    (s ++ t).head? ≠ some '\n' ∧ (unixPairs (s ++ t)).head? ≠ some '\n' := by
  cases s with
  | nil => simp at hother
  | cons c s =>
    rw [List.mem_cons, not_or] at hs
    have hkeep : unixPairs (c :: (s ++ t)) = c :: unixPairs (s ++ t) := by
      cases s with
      | nil =>
        apply unixPairs_cons
        simpa using hother
      | cons d s =>
        apply unixPairs_keep
        have hd : '\n' ≠ d := (not_or.1 (List.mem_cons.not.1 hs.2)).1
        simpa using Ne.symm hd
    rw [List.cons_append, hkeep]
    simp [Ne.symm hs.1]

/-! ## Units -/

theorem units_map_feedReturn (s : List Char) : units (s.map feedReturn) = units s := by
  induction s with
  | nil => rfl
  | cons c s ih =>
    have hc : charUnits (feedReturn c) = charUnits c := by
      rw [feedReturn]
      split
      · next h => rw [h]; rfl
      · rfl
    rw [List.map_cons, units, units, hc, ih]

/-- The line ends in two carriage returns. -/
def endsTwice (line : List Char) : Bool := ['\r', '\r'].isSuffixOf line

theorem endsTwice_iff {line : List Char} :
    endsTwice line = true ↔ ∃ front, line = front ++ ['\r'] ++ ['\r'] := by
  rw [endsTwice, List.isSuffixOf_iff_suffix]
  constructor
  · intro h
    obtain ⟨front, rfl⟩ := h
    exact ⟨front, by simp⟩
  · intro h
    obtain ⟨front, rfl⟩ := h
    exact ⟨front, by simp⟩

theorem dropReturn_cases (line : List Char) :
    line = dropReturn line ++ ['\r']
      ∨ dropReturn line = line ∧ ∀ front, line ≠ front ++ ['\r'] := by
  rcases List.eq_nil_or_concat line with rfl | ⟨front, c, rfl⟩
  · exact .inr ⟨rfl, by simp⟩
  · rw [List.concat_eq_append, dropReturn_concat]
    by_cases hc : c = '\r'
    · rw [if_pos hc, hc]
      exact .inl rfl
    · rw [if_neg hc]
      refine .inr ⟨rfl, ?_⟩
      intro front' h
      exact hc (by simpa using List.append_inj_right' h rfl)

/-- A line that loses a second carriage return has one unit less for it. -/
theorem units_dropReturn (line : List Char) :
    units (dropReturn line)
      = units (dropReturn (dropReturn line)) + if endsTwice line then 1 else 0 := by
  rcases dropReturn_cases (dropReturn line) with htwice | ⟨heq, hnot⟩
  · rcases dropReturn_cases line with honce | ⟨heq, hnot⟩
    · have hends : endsTwice line = true := by
        rw [endsTwice_iff]
        exact ⟨dropReturn (dropReturn line), by rw [← htwice, ← honce]⟩
      have hunit : units ['\r'] = 1 := rfl
      rw [if_pos hends, ← hunit, ← units_append, ← htwice]
    · rw [heq] at htwice
      exact absurd htwice (hnot _)
  · have hends : ¬ endsTwice line = true := by
      intro hends
      obtain ⟨front, hline⟩ := endsTwice_iff.1 hends
      apply hnot front
      rw [hline, dropReturn_concat, if_pos rfl]
    rw [if_neg hends, heq, Nat.add_zero]

/-- The lines of a text are written with as many units more than a browser shows as there are lines
that end in two carriage returns. -/
theorem units_written_eq {ls : List (List Char)} (h : ∀ line ∈ ls, '\n' ∉ line) :
    units (terminated (ls.map dropReturn))
      = units (displayed (terminated ls)) + ls.countP endsTwice := by
  induction ls with
  | nil => rfl
  | cons line ls ih =>
    rw [List.forall_mem_cons] at h
    rw [List.map_cons, terminated_cons, terminated_cons, displayed_line h.1, units_append,
      units_append, units, units, units_map_feedReturn, units_dropReturn, ih h.2,
      List.countP_cons]
    omega

end ThreatTree.Text
