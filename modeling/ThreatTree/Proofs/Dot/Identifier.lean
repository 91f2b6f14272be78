import Mathlib.Data.List.TakeDrop
import ThreatTree.Dot.Reading

/-!
# Identifiers that are written and read

A text is written bare, or in quotes. In quotes it is cut off at the quote behind it if it does
not end in the middle of an escape (`cutQuoted_escapeQuotes`), and what stands inside shows the
text again (`unescapeQuotes_escapeQuotes`, `unescape_escapeQuotes_escape`). A bare text is one
token up to a line feed at its end, which belongs to no token. So a text is read back exactly if
it does not lose its end (`text_written_iff`, `labelText_written_escape_iff`).

`readsAs_quotePlain` says that a text that is written is read as one identifier, whatever follows.
-/

namespace ThreatTree.Dot

/-! ## In quotes -/

/-- The text does not end in the middle of an escape. -/
def isClosed : List Char → Bool
  | [] => true
  | ['\\'] => false
  | '\\' :: _ :: s => isClosed s
  | _ :: s => isClosed s

theorem isClosed_cons {c : Char} (h : c ≠ '\\') (s : List Char) :
    isClosed (c :: s) = isClosed s := by
  rw [isClosed.eq_def]
  split <;> simp_all

theorem isClosed_of_not_mem {s : List Char} (h : '\\' ∉ s) : isClosed s = true := by
  induction s with
  | nil => rfl
  | cons c s ih =>
    rw [List.mem_cons, not_or] at h
    rw [isClosed_cons (Ne.symm h.1), ih h.2]

theorem escapeQuotes_cons_of_ne {c : Char} (hq : c ≠ '"') (hb : c ≠ '\\') (odd : Bool)
    (s : List Char) : escapeQuotes odd (c :: s) = c :: escapeQuotes false s := by
  rw [escapeQuotes.eq_def]
  split <;> simp_all

/-- A backslash takes the character after it along, be it a quote or not. -/
theorem escapeQuotes_escaped (c : Char) (s : List Char) :
    escapeQuotes false ('\\' :: c :: s) = '\\' :: c :: escapeQuotes false s := by
  rw [escapeQuotes]
  by_cases hq : c = '"'
  · subst hq
    rfl
  · by_cases hb : c = '\\'
    · subst hb
      rfl
    · rw [escapeQuotes_cons_of_ne hq hb]

theorem cutQuoted_cons {c : Char} (hq : c ≠ '"') (hb : c ≠ '\\') (s : List Char) :
    cutQuoted (c :: s) = (cutQuoted s).map fun p => (c :: p.1, p.2) := by
  rw [cutQuoted.eq_def]
  split <;> simp_all

/-- A text in quotes ends at the quote behind it, if it does not end inside an escape. -/
theorem cutQuoted_escapeQuotes {s : List Char} (h : isClosed s = true) (rest : List Char) :
    cutQuoted (escapeQuotes false s ++ '"' :: rest) = some (escapeQuotes false s, rest) := by
  fun_induction isClosed s with
  | case1 => rfl
  | case2 => exact absurd h Bool.false_ne_true
  | case3 c s ih =>
    rw [escapeQuotes_escaped, List.cons_append, List.cons_append, cutQuoted, ih h, Option.map_some]
  | case4 c s hne hne' ih =>
    have hb : c ≠ '\\' := by
      rintro rfl
      cases s with
      | nil => exact hne rfl rfl
      | cons d s => exact hne' d s rfl rfl
    by_cases hq : c = '"'
    · subst hq
      rw [escapeQuotes, if_neg Bool.false_ne_true, List.cons_append, List.cons_append, cutQuoted,
        ih h, Option.map_some]
    · rw [escapeQuotes_cons_of_ne hq hb, List.cons_append, cutQuoted_cons hq hb, ih h,
        Option.map_some]

theorem unescapeQuotes_cons {c : Char} (hb : c ≠ '\\') (s : List Char) :
    unescapeQuotes (c :: s) = c :: unescapeQuotes s := by
  rw [unescapeQuotes.eq_def]
  split <;> simp_all

theorem unescapeQuotes_escapeQuotes {s : List Char} (h : '\\' ∉ s) :
    unescapeQuotes (escapeQuotes false s) = s := by
  induction s with
  | nil => rfl
  | cons c s ih =>
    rw [List.mem_cons, not_or] at h
    by_cases hq : c = '"'
    · subst hq
      rw [escapeQuotes, if_neg Bool.false_ne_true, unescapeQuotes, ih h.2]
    · rw [escapeQuotes_cons_of_ne hq (Ne.symm h.1), unescapeQuotes_cons (Ne.symm h.1), ih h.2]

/-! ## Labels -/

theorem escape_cons (c : Char) (s : List Char) :
    escape (c :: s) = (if c = '\\' then ['\\', '\\'] else [c]) ++ escape s := rfl

theorem escape_of_not_mem {s : List Char} (h : '\\' ∉ s) : escape s = s := by
  induction s with
  | nil => rfl
  | cons c s ih =>
    rw [List.mem_cons, not_or] at h
    rw [escape_cons, if_neg (Ne.symm h.1), ih h.2, List.singleton_append]

theorem mem_escape_iff {s : List Char} {c : Char} : c ∈ escape s ↔ c ∈ s := by
  induction s with
  | nil => rfl
  | cons d s ih =>
    rw [escape_cons, List.mem_append, ih, List.mem_cons]
    split
    · next h => simp [h]
    · simp

/-- Doubled backslashes are no open escape. -/
theorem isClosed_escape (s : List Char) : isClosed (escape s) = true := by
  induction s with
  | nil => rfl
  | cons c s ih =>
    rw [escape_cons]
    split
    · exact ih
    · next h => rw [List.singleton_append, isClosed_cons h, ih]

theorem unescape_cons {c : Char} (hb : c ≠ '\\') (s : List Char) :
    unescape (c :: s) = c :: unescape s := by
  rw [unescape.eq_def]
  split <;> simp_all

/-- A label in quotes shows the text. -/
theorem unescape_escapeQuotes_escape (s : List Char) :
    unescape (escapeQuotes false (escape s)) = s := by
  induction s with
  | nil => rfl
  | cons c s ih =>
    rw [escape_cons]
    by_cases hb : c = '\\'
    · subst hb
      rw [if_pos rfl, List.cons_append, List.cons_append, List.nil_append, escapeQuotes_escaped,
        unescape, ih]
    · rw [if_neg hb, List.singleton_append]
      by_cases hq : c = '"'
      · subst hq
        rw [escapeQuotes, if_neg Bool.false_ne_true, unescape, ih]
      · rw [escapeQuotes_cons_of_ne hq hb, unescape_cons hb, ih]

/-! ## Bare texts -/

theorem dropLineFeed_cases (s : List Char) :
    dropLineFeed s = s ∧ s.getLast? ≠ some '\n'
      ∨ s = dropLineFeed s ++ ['\n'] ∧ s.getLast? = some '\n' := by
  unfold dropLineFeed
  split
  · next h =>
    refine .inr ⟨?_, h⟩
    obtain ⟨front, rfl⟩ := List.getLast?_eq_some_iff.1 h
    rw [List.dropLast_concat]
  · next h => exact .inl ⟨rfl, h⟩

/-- A digit or a point. -/
def isNumberChar (c : Char) : Bool := c.isDigit || c == '.'

theorem isUnsigned_chars {s : List Char} (h : isUnsigned s = true) :
    s ≠ [] ∧ ∀ c ∈ s, isNumberChar c = true := by
  have hdigits {part : List Char} (hall : part.all Char.isDigit = true) :
      ∀ c ∈ part, isNumberChar c = true := fun c hc => by
    simp [isNumberChar, List.all_eq_true.1 hall c hc]
  have hparts : s.takeWhile Char.isDigit ++ s.dropWhile Char.isDigit = s :=
    List.takeWhile_append_dropWhile
  have hwhole : ∀ c ∈ s.takeWhile Char.isDigit, isNumberChar c = true :=
    hdigits List.all_takeWhile
  simp only [isUnsigned, List.span_eq_takeWhile_dropWhile] at h
  generalize s.takeWhile Char.isDigit = whole at h hparts hwhole
  generalize s.dropWhile Char.isDigit = rest at h hparts
  subst hparts
  split at h
  · next places =>
    obtain ⟨-, hall⟩ := Bool.and_eq_true_iff.1 h
    exact ⟨by simp, List.forall_mem_cons.2 ⟨rfl, hdigits hall⟩⟩
  · exact ⟨by simp, by rwa [List.append_nil]⟩
  · next places =>
    exact ⟨by simp, List.forall_mem_append.2
      ⟨hwhole, List.forall_mem_cons.2 ⟨rfl, hdigits h⟩⟩⟩
  · exact absurd h Bool.false_ne_true

/-- A name or a numeral has a first character that opens no other token, and more of the same
kind. -/
theorem exists_of_isName_or_isNumeral {s : List Char} (h : (isName s || isNumeral s) = true) :
    ∃ c cs, s = c :: cs ∧ (isBareChar c = true ∨ c = '-' ∧ cs ≠ [])
      ∧ ∀ d ∈ cs, isBareChar d = true := by
  have hnumber {c : Char} (hc : isNumberChar c = true) : isBareChar c = true := by
    simp only [isNumberChar, Bool.or_eq_true] at hc
    rcases hc with hc | hc <;> simp [isBareChar, hc]
  rcases Bool.or_eq_true_iff.1 h with hname | hnumeral
  · cases s with
    | nil => exact absurd hname Bool.false_ne_true
    | cons c cs =>
      obtain ⟨hc, hcs⟩ := Bool.and_eq_true_iff.1 hname
      refine ⟨c, cs, rfl, .inl (by simp [isBareChar, hc]), fun d hd => ?_⟩
      have hd := List.all_eq_true.1 hcs d hd
      simp only [isBareChar, hd, Bool.true_or]
  · unfold isNumeral at hnumeral
    split at hnumeral
    · obtain ⟨hne, hchars⟩ := isUnsigned_chars hnumeral
      exact ⟨'-', _, rfl, .inr ⟨rfl, hne⟩, fun d hd => hnumber (hchars d hd)⟩
    · obtain ⟨hne, hchars⟩ := isUnsigned_chars hnumeral
      cases s with
      | nil => exact absurd rfl hne
      | cons c cs =>
        obtain ⟨hc, hcs⟩ := List.forall_mem_cons.1 hchars
        exact ⟨c, cs, rfl, .inl (hnumber hc), fun d hd => hnumber (hcs d hd)⟩

theorem isBare_word {s : List Char} (h : isBare s = true) :
    (isName (dropLineFeed s) || isNumeral (dropLineFeed s)) = true :=
  (Bool.and_eq_true_iff.1 h).1

theorem not_mem_of_isBare {s : List Char} (h : isBare s = true) {c : Char}
    (hbare : isBareChar c = false) (hminus : c ≠ '-') (hfeed : c ≠ '\n') : c ∉ s := by
  obtain ⟨d, ds, hword, hd, hds⟩ := exists_of_isName_or_isNumeral (isBare_word h)
  have hnot : c ∉ dropLineFeed s := by
    rw [hword, List.mem_cons, not_or]
    refine ⟨?_, fun hc => absurd (hds c hc) (by simp [hbare])⟩
    rintro rfl
    rcases hd with hd | ⟨hd, -⟩
    · exact absurd hd (by simp [hbare])
    · exact hminus hd
  rcases dropLineFeed_cases s with ⟨hs, -⟩ | ⟨hs, -⟩
  · rwa [hs] at hnot
  · rw [hs, List.mem_append, not_or]
    exact ⟨hnot, by simpa using hfeed⟩

/-! ## Tokens -/

/-- The text does not carry on a bare identifier in front of it. -/
def IsApart (s : List Char) : Prop := ∀ c, s.head? = some c → isBareChar c = false

theorem isApart_cons {c : Char} (h : isBareChar c = false) (s : List Char) : IsApart (c :: s) := by
  intro d hd
  obtain rfl := Option.some.inj hd
  exact h

/-- The text is read as one identifier, whatever follows it. -/
def ReadsAs (s : List Char) (i : Identifier) : Prop :=
  ∀ rest, IsApart rest → tokens? (s ++ rest) = (tokens? rest).map (.identifier i :: ·)

theorem tokens?_blank {c : Char} (h : c = ' ' ∨ c = '\t' ∨ c = '\n') (rest : List Char) :
    tokens? (c :: rest) = tokens? rest := by
  rcases h with rfl | rfl | rfl <;> rw [tokens?] <;> simp

theorem takeWhile_of_isApart {s rest : List Char} (h : ∀ c ∈ s, isBareChar c = true)
    (hrest : IsApart rest) :
    (s ++ rest).takeWhile isBareChar = s ∧ (s ++ rest).dropWhile isBareChar = rest := by
  rw [List.takeWhile_append_of_pos h, List.dropWhile_append_of_pos h]
  cases rest with
  | nil => simp
  | cons c rest =>
    have hc := hrest c rfl
    simp [hc]

/-- A name or a numeral is one token. -/
theorem readsAs_bare {s : List Char} (h : (isName s || isNumeral s) = true) :
    ReadsAs s (.bare s) := by
  intro rest hrest
  obtain ⟨c, cs, rfl, hc, hcs⟩ := exists_of_isName_or_isNumeral h
  obtain ⟨htake, hdrop⟩ := takeWhile_of_isApart hcs hrest
  have hne {d : Char} (hd : isBareChar d = false) (hminus : d ≠ '-') : c ≠ d := by
    rintro rfl
    rcases hc with hc | ⟨hc, -⟩
    · exact absurd hc (by simp [hd])
    · exact hminus hc
  have harrow : ∀ t, c = '-' → cs ++ rest = '>' :: t → False := by
    rintro t rfl ht
    cases cs with
    | nil => exact (hc.resolve_left (by decide)).2 rfl
    | cons d cs =>
      obtain ⟨rfl, -⟩ := List.cons.inj ht
      exact absurd (hcs '>' List.mem_cons_self) (by decide)
  have hblank : (decide (c = ' ') || decide (c = '\t') || decide (c = '\n')) = false := by
    simp [hne (d := ' ') rfl (by decide), hne (d := '\t') rfl (by decide),
      hne (d := '\n') rfl (by decide)]
  rw [List.cons_append, tokens?]
  · rw [hblank]
    simp only [Bool.false_eq_true, if_false, htake, hdrop, h, if_true]
  · exact harrow
  · exact fun _ hs _ => hne rfl (by decide) hs
  all_goals exact hne rfl (by decide)

theorem tokens?_quoted {s inside rest : List Char} (h : cutQuoted s = some (inside, rest)) :
    tokens? ('"' :: s) = (tokens? rest).map (.identifier (.quoted inside) :: ·) := by
  rw [tokens?]
  split
  · next hnone => exact absurd h (by simp [hnone])
  · next p hp =>
    obtain rfl : (inside, rest) = p := Option.some.inj (h.symm.trans hp)
    rfl

/-- The identifier that is read where a text was written, unless it was written as markup. -/
def written (s : List Char) : Identifier :=
  if isBare s then .bare (dropLineFeed s) else .quoted (escapeQuotes false s)

/-- A text that is written is read as one identifier. -/
theorem readsAs_quotePlain {s : List Char} (h : isClosed s = true) :
    ReadsAs (quotePlain s) (written s) := by
  intro rest hrest
  unfold quotePlain written
  by_cases hs : isBare s = true
  · rw [if_pos hs, if_pos hs]
    rcases dropLineFeed_cases s with ⟨hs', -⟩ | ⟨hs', -⟩
    · rw [hs']
      exact readsAs_bare (hs' ▸ isBare_word hs) rest hrest
    · calc tokens? (s ++ rest)
          = tokens? (dropLineFeed s ++ '\n' :: rest) := by
            rw [hs', List.append_assoc, List.singleton_append, ← hs']
        _ = (tokens? ('\n' :: rest)).map (.identifier (.bare (dropLineFeed s)) :: ·) :=
            readsAs_bare (isBare_word hs) _ (isApart_cons rfl rest)
        _ = (tokens? rest).map (.identifier (.bare (dropLineFeed s)) :: ·) := by
            rw [tokens?_blank (.inr (.inr rfl))]
  · rw [if_neg hs, if_neg hs, inQuotes]
    show tokens? ('"' :: (escapeQuotes false s ++ ['"'] ++ rest)) = _
    rw [List.append_assoc, List.singleton_append]
    exact tokens?_quoted (cutQuoted_escapeQuotes h rest)

/-! ## What is read back -/

/-- The text has a line feed at its end that is lost, because the text stands bare in front
of it. -/
def LosesEnd (s : List Char) : Prop := isBare s = true ∧ s.getLast? = some '\n'

instance (s : List Char) : Decidable (LosesEnd s) := inferInstanceAs (Decidable (_ ∧ _))

theorem dropLineFeed_eq_iff {s : List Char} : dropLineFeed s = s ↔ s.getLast? ≠ some '\n' := by
  rcases dropLineFeed_cases s with ⟨hs, hlast⟩ | ⟨hs, hlast⟩
  · exact iff_of_true hs hlast
  · refine iff_of_false (fun heq => ?_) (not_not_intro hlast)
    have hlength := congrArg List.length hs
    rw [heq, List.length_append, List.length_singleton] at hlength
    omega

/-- A text without backslashes is read back exactly if it does not lose its end. -/
theorem text_written_iff {s : List Char} (h : '\\' ∉ s) :
    (written s).text = s ↔ ¬ LosesEnd s := by
  unfold written LosesEnd
  by_cases hs : isBare s = true
  · rw [if_pos hs]
    simp only [hs, true_and]
    exact dropLineFeed_eq_iff
  · rw [if_neg hs]
    exact iff_of_true (unescapeQuotes_escapeQuotes h) fun hlost => hs hlost.1

/-- Doubling backslashes does not change whether a text may stand bare: one that may has none. -/
theorem isBare_escape (s : List Char) : isBare (escape s) = isBare s := by
  by_cases hb : '\\' ∈ s
  · have hnot {t : List Char} (ht : '\\' ∈ t) : isBare t = false := Bool.eq_false_iff.2 fun hbare =>
      not_mem_of_isBare hbare rfl (by decide) (by decide) ht
    rw [hnot hb, hnot (mem_escape_iff.2 hb)]
  · rw [escape_of_not_mem hb]

theorem escape_of_isBare {s : List Char} (h : isBare s = true) : escape s = s :=
  escape_of_not_mem (not_mem_of_isBare h rfl (by decide) (by decide))

/-- A label is shown as it is exactly if it does not lose its end. -/
theorem labelText_written_escape_iff {s : List Char} :
    (written (escape s)).labelText = s ↔ ¬ LosesEnd s := by
  unfold written LosesEnd
  rw [isBare_escape]
  by_cases hs : isBare s = true
  · rw [if_pos hs, escape_of_isBare hs]
    simp only [hs, true_and]
    exact dropLineFeed_eq_iff
  · rw [if_neg hs]
    exact iff_of_true (unescape_escapeQuotes_escape s) fun hlost => hs hlost.1

end ThreatTree.Dot
