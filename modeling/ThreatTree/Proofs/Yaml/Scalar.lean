import ThreatTree.Proofs.Yaml.Written
import ThreatTree.Proofs.Yaml.Place

/-!
# A written text among other entries

The value of an entry is written behind the colon of its key, with an empty line behind it. The
lexer reads it as one scalar, and goes on with what stands behind the empty line
(`Lexer.exists_step_scalar`): which token is read depends on how the text was written, and a
plain scalar takes the empty line with it, while a quoted one leaves it.

A next line character between single quotes is read as a line end, so a text that is written in
this way must have none (`Writing.IsReadBack`).
-/

namespace ThreatTree.Yaml

namespace Writing

/-- A text between single quotes has no next line character in it. -/
def IsReadBack (s : List Char) : Prop :=
  isPlain s = false → needsEscapes s = false → '\x85' ∉ s

theorem exists_head_scalar (column : Nat) (s : List Char) :
    ∃ ch tail, scalar column s = ch :: tail ∧ isGap ch = false ∧ ch ≠ '#' := by
  rw [scalar]
  split
  · next h => exact (isReadPlain_of_isPlain h).arePlain_runs.exists_head _ _
  · split
    · exact ⟨_, _, rfl, rfl, by decide⟩
    · exact ⟨_, _, rfl, rfl, by decide⟩

/-- What is written of a plain text starts with no mark either. -/
theorem hasMarkAtStart_plain {s : List Char} (h : isPlain s = true) (column : Nat)
    (rest : List Char) : hasMarkAtStart (plain column s ++ rest) = false := by
  have hstart : hasMarkAtStart s = false := by
    simp only [isPlain, Bool.and_eq_true, Bool.not_eq_true'] at h
    exact h.1.2
  have hplain := (isReadPlain_of_isPlain h).arePlain_runs
  have hflat := flatMap_chars_runs s
  rw [plain]
  generalize runs s = rs at hplain hflat
  obtain ⟨t, rs, rfl, ht⟩ := hplain.exists_word
  obtain ⟨ch, t, rfl⟩ := List.exists_cons_of_ne_nil ht.ne_nil
  rw [List.flatMap_cons, Run.chars] at hflat
  subst hflat
  rw [writeRuns_text]
  simp only [List.cons_append, hasMarkAtStart, Bool.or_eq_false_iff] at hstart ⊢
  refine ⟨hstart.1, ?_⟩
  cases t with
  | cons d t => exact hstart.2
  | nil =>
    have hgap : atGap (rs.flatMap Run.chars) = true := by
      cases hplain with
      | last => rfl
      | @cons _ n rs _ hn _ =>
        obtain ⟨n, rfl⟩ := Nat.exists_eq_succ_of_ne_zero (Nat.ne_of_gt hn)
        rfl
    rw [List.nil_append, hgap, Bool.and_true] at hstart
    rw [hstart.2, Bool.false_and]

end Writing

namespace Lexer

open Writing

/-! ## Gaps in front of a token -/

/-- The text starts with a token. -/
def AtToken (s : List Char) : Prop := atGap s = false ∧ s.head? ≠ some '#'

section Gaps

variable {inFlow allowed : Bool} {n : Nat} {c : Cursor} {rest : List Char}

theorem dropComment_of_head? (h : c.rest.head? ≠ some '#') : c.dropComment = c := by
  rw [Cursor.dropComment, if_neg]
  simpa [Cursor.sees, Cursor.peek] using h

theorem skipGaps_of_atToken (h : AtToken c.rest) :
    skipGaps inFlow (n + 1) allowed c = (allowed, c) := by
  have hblank : c.dropWhile (· == ' ') = c := by
    apply c.dropWhile_eq_self
    have hne := head?_ne_blank h.1
    cases hhead : c.rest.head? with
    | none => rfl
    | some ch => simpa [hhead] using hne
  rw [skipGaps]
  simp only [hblank, dropComment_of_head? h.2, c.lineEnd?_of_atGap h.1]

theorem skipGaps_blank (hc : c.rest = ' ' :: rest) (h : AtToken rest) :
    skipGaps inFlow (n + 1) allowed c = (allowed, c.next) := by
  have hnext : c.next.rest = rest := c.rest_next_of_cons hc
  have hdrop : c.dropWhile (· == ' ') = c.next.dropWhile (· == ' ') := by
    rw [Cursor.dropWhile, Cursor.dropWhile, Cursor.takeWhile, Cursor.takeWhile, hc, hnext]
    rfl
  have hsame : skipGaps inFlow (n + 1) allowed c = skipGaps inFlow (n + 1) allowed c.next := by
    rw [skipGaps, skipGaps, hdrop]
  rw [hsame, skipGaps_of_atToken (hnext.symm ▸ h)]

theorem skipGaps_lineEnd (hc : c.rest = '\n' :: rest) :
    skipGaps false (n + 1) allowed c = skipGaps false n true c.next := by
  have hblank : c.dropWhile (· == ' ') = c := c.dropWhile_eq_self (by rw [hc]; rfl)
  have hcomment : c.dropComment = c := dropComment_of_head? (by simp [hc])
  rw [skipGaps]
  simp only [hblank, hcomment, lineEnd?_of_feed hc, Bool.not_false, Bool.or_true]

end Gaps

variable {x y : Lexer} {rest : List Char}

theorem toToken_eq (h : x.cursor.rest.head? ≠ some '\ufeff') :
    x.toToken = { x with
      keyAllowed :=
        (skipGaps x.inFlow (x.cursor.rest.length + 1) x.keyAllowed x.cursor).1
      cursor := (skipGaps x.inFlow (x.cursor.rest.length + 1) x.keyAllowed x.cursor).2 } := by
  have hsees : x.cursor.sees '\ufeff' = false := by simpa [Cursor.sees, Cursor.peek] using h
  rw [toToken, hsees, Bool.and_false, if_neg (by decide)]

theorem toToken_of_atToken (h : AtToken x.cursor.rest)
    (hbyte : x.cursor.rest.head? ≠ some '\ufeff') : x.toToken = x := by
  rw [toToken_eq hbyte, skipGaps_of_atToken h]

theorem toToken_of_blank (hc : x.cursor.rest = ' ' :: rest) (h : AtToken rest) :
    x.toToken = { x with cursor := x.cursor.next } := by
  rw [toToken_eq (by simp [hc]), skipGaps_blank hc h]

/-- Behind an empty line a key may start again. -/
theorem toToken_of_emptyLine (hflow : x.outer = []) (hc : x.cursor.rest = '\n' :: '\n' :: rest)
    (h : AtToken rest) : x.toToken = { x with cursor := x.cursor.skip 2, keyAllowed := true } := by
  have hin : x.inFlow = false := by
    rw [inFlow, hflow]
    rfl
  have hnext : x.cursor.next.rest = '\n' :: rest := x.cursor.rest_next_of_cons hc
  have hskip : x.cursor.next.next.rest = rest := x.cursor.next.rest_next_of_cons hnext
  have hlength : x.cursor.rest.length + 1 = rest.length + 1 + 1 + 1 := by
    rw [hc]
    rfl
  rw [toToken_eq (by simp [hc]), hin, hlength, skipGaps_lineEnd hc, skipGaps_lineEnd hnext,
    skipGaps_of_atToken (hskip.symm ▸ h)]
  rfl

theorem cursor_skip_emptyLine {c : Cursor} (hc : c.rest = '\n' :: '\n' :: rest) :
    c.skip 2 = ⟨rest, c.index + 2, c.line + 2, 0⟩ := by
  obtain ⟨_, index, line, column⟩ := c
  subst hc
  rfl

/-- In an outermost mapping without a key that waits for its colon, the next token is read where
the gaps end. -/
theorem step_of_toToken (h : x.toToken = y) (hcandidate : y.candidate = none)
    (houter : y.outer = []) (hindents : y.indents = [0]) : x.step = y.readToken := by
  have hstale : y.dropStale = .ok y := by
    obtain ⟨cursor, indents, keyAllowed, candidate, outer, tokens⟩ := y
    subst hcandidate houter
    rfl
  have hclose : y.closeBlocks (y.cursor.column < ·) = y := by
    obtain ⟨cursor, indents, keyAllowed, candidate, outer, tokens⟩ := y
    subst houter hindents
    simp [closeBlocks, inFlow]
  rw [step, h, hstale, ok_bind, hclose]

/-! ## One scalar -/

/-- A text without a mark at its start is read as a plain scalar. -/
theorem readToken_eq_readPlainScalar {ch : Char} (hflow : x.outer = [])
    (hcolumn : x.cursor.column ≠ 0) (hc : x.cursor.rest = ch :: rest) (hgap : isGap ch = false)
    (hmark : hasMarkAtStart (ch :: rest) = false) : x.readToken = x.readPlainScalar := by
  have hin : x.inFlow = false := by
    rw [inFlow, hflow]
    rfl
  simp only [hasMarkAtStart, Bool.or_eq_false_iff] at hmark
  obtain ⟨hmarks, hindicator⟩ := hmark
  have hindicators : (ch == '?' && atGap rest) = false ∧ (ch == ':' && atGap rest) = false
      ∧ (ch == '-' && atGap rest) = false := by
    revert hindicator
    cases atGap rest <;> simp +contextual
  simp only [String.reduceToList, List.contains_eq_mem, List.mem_cons, List.not_mem_nil, or_false,
    decide_eq_false_iff_not, not_or] at hmarks
  have hplain : startsPlain false ch rest = true := by
    simp only [startsPlain, hgap, String.reduceToList, List.contains_eq_mem, List.mem_cons,
      List.not_mem_nil, hmarks, or_false, Bool.false_or]
    revert hindicator
    cases atGap rest <;> by_cases hdash : ch = '-' <;> by_cases hkey : ch = '?'
      <;> by_cases hvalue : ch = ':' <;> simp [hdash, hkey, hvalue]
  rw [readToken]
  simp [hc, hin, hcolumn, hmarks, hindicators, hplain]

section

variable {c c' : Cursor} {t : List Char} {front : List Token}

/-- No key can start behind a colon, so a scalar is read there without further ado. -/
theorem propose_behind_colon :
    propose ⟨c, [0], false, none, [], front⟩ = .ok ⟨c, [0], false, none, [], front⟩ :=
  rfl

theorem readPlainScalar_eq {broke : Bool} (h : readPlain false 1 c = (t, broke, c')) :
    readPlainScalar ⟨c, [0], false, none, [], front⟩
      = .ok ⟨c', [0], broke, none, [], .scalar t true :: front⟩ := by
  have hread : readPlain (inFlow ⟨c, [0], false, none, [], front⟩) ([0].head?.elim 0 (· + 1)) c
      = (t, broke, c') := h
  rw [readPlainScalar, propose_behind_colon, ok_bind]
  dsimp only
  rw [hread]
  rfl

theorem readToken_of_quote {double : Bool} (hc : c.rest = quote double :: rest)
    (h : readQuoted double c = .ok (t, c')) :
    readToken ⟨c, [0], false, none, [], front⟩
      = .ok ⟨c', [0], false, none, [], .scalar t false :: front⟩ := by
  rw [readToken]
  cases double with
  | false =>
    simp [hc, quote, readProposed, propose_behind_colon, ok_bind, h]
    rfl
  | true =>
    simp [hc, quote, readProposed, propose_behind_colon, ok_bind, h]
    rfl

/-- A text in quotes is read from its first quote to its last one. -/
theorem exists_readQuoted_scalar {s : List Char} {column : Nat} (hs : IsReadBack s)
    (hplain : Writing.isPlain s = false) (hrest : rest.head? ≠ some '\'')
    (hc : c.rest = scalar column s ++ rest) :
    ∃ double tail c', c.rest = quote double :: tail ∧ readQuoted double c = .ok (s, c')
      ∧ c'.rest = rest := by
  rw [scalar, if_neg (by simp [hplain])] at hc
  split at hc
  · obtain ⟨c', hread, hc'⟩ := readQuoted_doubleQuoted s hc
    exact ⟨true, _, c', hc, hread, hc'⟩
  · next hescapes =>
    rw [Bool.not_eq_true] at hescapes
    obtain ⟨c', hread, hc'⟩ :=
      readQuoted_singleQuoted hescapes (hs hplain hescapes) hrest hc
    exact ⟨false, _, c', hc, hread, hc'⟩

/-- **A written text is read as one scalar**, and what stands behind the empty line comes next. -/
theorem exists_step_scalar {s : List Char} (hs : IsReadBack s) {column : Nat}
    (hrest : AtToken rest) (hmark : atDocumentMark rest = false)
    (hbyte : rest.head? ≠ some '\ufeff')
    (hc : c.rest = ' ' :: (scalar column s ++ '\n' :: '\n' :: rest)) :
    ∃ (y : Lexer) (index line : Nat), step ⟨c, [0], false, none, [], front⟩ = .ok y
      ∧ y.tokens = .scalar s (Writing.isPlain s) :: front
      ∧ y.toToken = ⟨⟨rest, index + 1, line, 0⟩, [0], true, none, [],
          .scalar s (Writing.isPlain s) :: front⟩ := by
  obtain ⟨ch, tail, hwritten, hgap, hcomment⟩ := exists_head_scalar column s
  have hat : AtToken (scalar column s ++ '\n' :: '\n' :: rest) := by
    rw [hwritten]
    exact ⟨hgap, by simpa using hcomment⟩
  have hnext : c.next.rest = scalar column s ++ '\n' :: '\n' :: rest := c.rest_next_of_cons hc
  have hcolumn : c.next.column ≠ 0 := by
    obtain ⟨_, index, line, column⟩ := c
    subst hc
    exact Nat.succ_ne_zero column
  rw [step_of_toToken (toToken_of_blank hc hat) rfl rfl rfl]
  cases hplain : Writing.isPlain s with
  | true =>
    rw [scalar, if_pos hplain] at hnext hwritten
    obtain ⟨c₁, hc₁, hread⟩ :=
      (isReadPlain_of_isPlain hplain).readPlain_eq hrest.1 hmark hnext
    have hstart := hasMarkAtStart_plain hplain column ('\n' :: '\n' :: rest)
    rw [hwritten, List.cons_append] at hnext hstart
    have hleft : (c₁.skip 2).rest = rest := by
      rw [c₁.rest_skip, hc₁]
      rfl
    refine ⟨⟨c₁.skip 2, [0], true, none, [], .scalar s true :: front⟩, c₁.index + 1,
      c₁.line + 2, ?_, rfl, ?_⟩
    · rw [readToken_eq_readPlainScalar rfl hcolumn hnext hgap hstart]
      exact readPlainScalar_eq hread
    · rw [toToken_of_atToken (hleft.symm ▸ hrest) (hleft.symm ▸ hbyte),
        cursor_skip_emptyLine hc₁]
  | false =>
    obtain ⟨double, tail, c₁, hquote, hread, hc₁⟩ :=
      exists_readQuoted_scalar hs hplain (by simp) hnext
    refine ⟨_, c₁.index + 1, c₁.line + 2, readToken_of_quote hquote hread, rfl, ?_⟩
    rw [toToken_of_emptyLine rfl hc₁ hrest, cursor_skip_emptyLine hc₁]

end

end Lexer

end ThreatTree.Yaml
