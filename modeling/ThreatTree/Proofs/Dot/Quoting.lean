import ThreatTree.Proofs.Dot.Identifier

/-!
# Which texts are written as identifiers

A text that is written comes out as an identifier of DOT (`IsIdentifier`) unless it is broken off:
markup has to end where its brackets balance, a bare text must not end with a line feed, and a text
in quotes must not end inside an escape (`isIdentifier_quote_iff`).

Two texts can be written alike. This happens exactly to texts in quotes that differ only in the
backslashes in front of their quotes (`quote_eq_quote_iff`).

What is proved along a text in quotes is proved by `escape_induction`: a backslash takes the
character after it along.
-/

namespace ThreatTree.Dot

/-! ## Identifiers -/

/-- The first bracket is closed by the last one: there are as many closing brackets as opening
ones, and fewer in front of any place inside. -/
def IsBalanced (s : List Char) : Prop :=
  s.count '>' = s.count '<'
    ∧ ∀ k < s.length, 0 < k → (s.take k).count '>' < (s.take k).count '<'

instance (s : List Char) : Decidable (IsBalanced s) := inferInstanceAs (Decidable (_ ∧ _))

/-- The text is an identifier of DOT: a name that is no keyword, a numeral, a text in quotes that
ends at the first quote that is not escaped, or markup that ends where its brackets balance. -/
inductive IsIdentifier : List Char → Prop
  | name {s : List Char} :
      isName s = true → s.map Char.toLower ∉ keywords → IsIdentifier s
  | numeral {s : List Char} : isNumeral s = true → IsIdentifier s
  | quoted {inside : List Char} :
      cutQuoted (inside ++ ['"']) = some (inside, []) → IsIdentifier ('"' :: inside ++ ['"'])
  | markup {s : List Char} : IsBalanced ('<' :: s) → IsIdentifier ('<' :: s)

/-- The text is written in quotes. -/
def IsQuoted (s : List Char) : Prop := isMarkup s = false ∧ isBare s = false

instance (s : List Char) : Decidable (IsQuoted s) := inferInstanceAs (Decidable (_ ∧ _))

/-- The text is not broken off where it is written. -/
def IsWhole (s : List Char) : Prop :=
  (isMarkup s = true → IsBalanced s)
    ∧ (isMarkup s = false → isBare s = true → s.getLast? ≠ some '\n')
    ∧ (IsQuoted s → isClosed s = true)

instance (s : List Char) : Decidable (IsWhole s) := inferInstanceAs (Decidable (_ ∧ _ ∧ _))

theorem quote_of_isMarkup {s : List Char} (h : isMarkup s = true) : quote s = s := by
  rw [quote, if_pos h]

theorem quote_of_isBare {s : List Char} (hmarkup : isMarkup s = false) (h : isBare s = true) :
    quote s = s := by
  rw [quote, if_neg (by simp [hmarkup]), quotePlain, if_pos h]

theorem quote_of_isQuoted {s : List Char} (h : IsQuoted s) : quote s = inQuotes s := by
  rw [quote, if_neg (by simp [h.1]), quotePlain, if_neg (by simp [h.2])]

/-- A text is written as markup, bare, or in quotes. -/
theorem markup_or_bare_or_quoted (s : List Char) :
    isMarkup s = true ∨ (isMarkup s = false ∧ isBare s = true) ∨ IsQuoted s := by
  cases hmarkup : isMarkup s with
  | true => exact .inl rfl
  | false =>
    cases hbare : isBare s with
    | true => exact .inr (.inl ⟨rfl, rfl⟩)
    | false => exact .inr (.inr ⟨hmarkup, hbare⟩)

theorem exists_cons_of_isMarkup {s : List Char} (h : isMarkup s = true) : ∃ t, s = '<' :: t := by
  simp only [isMarkup, Bool.and_eq_true, beq_iff_eq] at h
  have hhead := h.1.1
  unfold dropLineFeed at hhead
  cases s with
  | nil => exact absurd hhead (by simp)
  | cons c t =>
    split at hhead
    · cases t with
      | nil => exact absurd hhead (by simp)
      | cons d t =>
        rw [List.dropLast_cons_cons, List.head?_cons, Option.some.injEq] at hhead
        exact ⟨d :: t, by rw [hhead]⟩
    · rw [List.head?_cons, Option.some.injEq] at hhead
      exact ⟨t, by rw [hhead]⟩

/-- No name and no numeral starts with a quote or with a bracket. -/
theorem head?_of_isName_or_isNumeral {s : List Char} (h : (isName s || isNumeral s) = true) :
    s.head? ≠ some '"' ∧ s.head? ≠ some '<' := by
  obtain ⟨c, cs, rfl, hc, -⟩ := exists_of_isName_or_isNumeral h
  constructor <;>
    · rw [List.head?_cons, Ne, Option.some.injEq]
      rintro rfl
      rcases hc with hc | ⟨hc, -⟩ <;> exact absurd hc (by decide)

theorem getLast?_of_isName_or_isNumeral {s : List Char} (h : (isName s || isNumeral s) = true) :
    s.getLast? ≠ some '\n' := by
  obtain ⟨c, cs, rfl, hc, hcs⟩ := exists_of_isName_or_isNumeral h
  intro hlast
  rcases List.mem_cons.1 (List.mem_of_getLast? hlast) with rfl | hmem
  · rcases hc with hc | ⟨hc, -⟩ <;> exact absurd hc (by decide)
  · exact absurd (hcs _ hmem) (by decide)

/-- Induction along a text whose backslashes take the characters after them along. -/
theorem escape_induction {motive : List Char → Prop} (nil : motive []) (lone : motive ['\\'])
    (escaped : ∀ c s, motive s → motive ('\\' :: c :: s))
    (plain : ∀ c s, c ≠ '\\' → motive s → motive (c :: s)) (s : List Char) : motive s := by
  fun_induction isClosed s with
  | case1 => exact nil
  | case2 => exact lone
  | case3 c s ih => exact escaped c s ih
  | case4 c s hne hne' ih =>
    refine plain c s ?_ ih
    rintro rfl
    cases s with
    | nil => exact hne rfl rfl
    | cons d s => exact hne' d s rfl rfl

/-- A text that ends inside an escape swallows the quote behind it. -/
theorem cutQuoted_escapeQuotes_eq_none {s : List Char} (h : isClosed s = false) :
    cutQuoted (escapeQuotes false s ++ ['"']) = none := by
  induction s using escape_induction with
  | nil => exact absurd h (by decide)
  | lone => rfl
  | escaped c s ih =>
    rw [escapeQuotes_escaped, List.cons_append, List.cons_append, cutQuoted, ih h, Option.map_none]
  | plain c s hb ih =>
    rw [isClosed_cons hb] at h
    by_cases hq : c = '"'
    · subst hq
      rw [escapeQuotes, if_neg Bool.false_ne_true, List.cons_append, List.cons_append, cutQuoted,
        ih h, Option.map_none]
    · rw [escapeQuotes_cons_of_ne hq hb, List.cons_append, cutQuoted_cons hq hb, ih h,
        Option.map_none]

theorem isIdentifier_of_isMarkup_iff {s : List Char} (h : isMarkup s = true) :
    IsIdentifier s ↔ IsBalanced s := by
  obtain ⟨t, rfl⟩ := exists_cons_of_isMarkup h
  constructor
  · intro hid
    have hplain (hword : (isName ('<' :: t) || isNumeral ('<' :: t)) = true) : False :=
      (head?_of_isName_or_isNumeral hword).2 rfl
    cases hid with
    | name hname _ => exact (hplain (by simp [hname])).elim
    | numeral hnumeral => exact (hplain (by simp [hnumeral])).elim
    | markup hbalanced => exact hbalanced
  · exact .markup

theorem isIdentifier_of_isBare_iff {s : List Char} (h : isBare s = true) :
    IsIdentifier s ↔ s.getLast? ≠ some '\n' := by
  constructor
  · intro hid
    cases hid with
    | name hname _ => exact getLast?_of_isName_or_isNumeral (by simp [hname])
    | numeral hnumeral => exact getLast?_of_isName_or_isNumeral (by simp [hnumeral])
    | quoted _ =>
      exact absurd List.mem_cons_self (not_mem_of_isBare h rfl (by decide) (by decide))
    | markup _ =>
      exact absurd List.mem_cons_self (not_mem_of_isBare h rfl (by decide) (by decide))
  · intro hlast
    obtain ⟨hword, hkeyword⟩ := Bool.and_eq_true_iff.1 h
    rw [dropLineFeed_eq_iff.2 hlast] at hword
    rcases Bool.or_eq_true_iff.1 hword with hname | hnumeral
    · exact .name hname (by simpa using hkeyword)
    · exact .numeral hnumeral

theorem isIdentifier_inQuotes_iff {s : List Char} :
    IsIdentifier (inQuotes s) ↔ isClosed s = true := by
  constructor
  · intro hid
    have hplain (hword : (isName (inQuotes s) || isNumeral (inQuotes s)) = true) : False :=
      (head?_of_isName_or_isNumeral hword).1 rfl
    generalize hq : inQuotes s = q at hid hplain
    cases hid with
    | name hname _ => exact (hplain (by simp [hname])).elim
    | numeral hnumeral => exact (hplain (by simp [hnumeral])).elim
    | quoted hcut =>
      obtain ⟨-, hinside⟩ := List.cons.inj hq
      rw [← List.append_cancel_right hinside] at hcut
      by_contra hopen
      rw [cutQuoted_escapeQuotes_eq_none (by simpa using hopen)] at hcut
      exact absurd hcut (by simp)
    | markup _ => exact absurd (List.cons.inj hq).1 (by decide)
  · intro h
    exact .quoted (cutQuoted_escapeQuotes h [])

/-- **A text is written as an identifier exactly if it is whole.** -/
theorem isIdentifier_quote_iff {s : List Char} : IsIdentifier (quote s) ↔ IsWhole s := by
  unfold IsWhole
  rcases markup_or_bare_or_quoted s with h | ⟨hmarkup, h⟩ | h
  · rw [quote_of_isMarkup h, isIdentifier_of_isMarkup_iff h]
    simp [h, IsQuoted]
  · rw [quote_of_isBare hmarkup h, isIdentifier_of_isBare_iff h]
    simp [h, hmarkup, IsQuoted]
  · rw [quote_of_isQuoted h, isIdentifier_inQuotes_iff]
    simp [h, h.1, h.2]

/-! ## Texts that are written alike -/

/-- Both texts are written in quotes, and they differ only in backslashes in front of quotes. -/
def AreAlike (s t : List Char) : Prop :=
  IsQuoted s ∧ IsQuoted t ∧ unescapeQuotes s = unescapeQuotes t

instance (s t : List Char) : Decidable (AreAlike s t) := inferInstanceAs (Decidable (_ ∧ _ ∧ _))

theorem unescapeQuotes_escaped {c : Char} (h : c ≠ '"') (s : List Char) :
    unescapeQuotes ('\\' :: c :: s) = '\\' :: c :: unescapeQuotes s := by
  rw [unescapeQuotes]
  exact h

/-- Escaping quotes does not change what the text shows. -/
theorem unescapeQuotes_escapeQuotes_eq (s : List Char) :
    unescapeQuotes (escapeQuotes false s) = unescapeQuotes s := by
  induction s using escape_induction with
  | nil => rfl
  | lone => rfl
  | escaped c s ih =>
    rw [escapeQuotes_escaped]
    by_cases hq : c = '"'
    · subst hq
      rw [unescapeQuotes, unescapeQuotes, ih]
    · rw [unescapeQuotes_escaped hq, unescapeQuotes_escaped hq, ih]
  | plain c s hb ih =>
    rw [unescapeQuotes_cons hb]
    by_cases hq : c = '"'
    · subst hq
      rw [escapeQuotes, if_neg Bool.false_ne_true, unescapeQuotes, ih]
    · rw [escapeQuotes_cons_of_ne hq hb, unescapeQuotes_cons hb, ih]

/-- A backslash in front of a quote is put back. -/
theorem escapeQuotes_unescapeQuotes (s : List Char) :
    escapeQuotes false (unescapeQuotes s) = escapeQuotes false s := by
  induction s using escape_induction with
  | nil => rfl
  | lone => rfl
  | escaped c s ih =>
    rw [escapeQuotes_escaped]
    by_cases hq : c = '"'
    · subst hq
      rw [unescapeQuotes, escapeQuotes, if_neg Bool.false_ne_true, ih]
    · rw [unescapeQuotes_escaped hq, escapeQuotes_escaped, ih]
  | plain c s hb ih =>
    rw [unescapeQuotes_cons hb]
    by_cases hq : c = '"'
    · subst hq
      rw [escapeQuotes, if_neg Bool.false_ne_true, escapeQuotes, if_neg Bool.false_ne_true, ih]
    · rw [escapeQuotes_cons_of_ne hq hb, escapeQuotes_cons_of_ne hq hb, ih]

theorem inQuotes_eq_inQuotes_iff {s t : List Char} :
    inQuotes s = inQuotes t ↔ unescapeQuotes s = unescapeQuotes t := by
  constructor
  · intro h
    have hinside : escapeQuotes false s = escapeQuotes false t :=
      List.append_cancel_right (List.cons.inj h).2
    rw [← unescapeQuotes_escapeQuotes_eq s, hinside, unescapeQuotes_escapeQuotes_eq]
  · intro h
    rw [inQuotes, inQuotes, ← escapeQuotes_unescapeQuotes s, h, escapeQuotes_unescapeQuotes]

theorem quote_of_not_isQuoted {s : List Char} (h : ¬ IsQuoted s) : quote s = s := by
  rcases markup_or_bare_or_quoted s with hmarkup | ⟨hmarkup, hbare⟩ | hquoted
  · exact quote_of_isMarkup hmarkup
  · exact quote_of_isBare hmarkup hbare
  · exact absurd hquoted h

/-- A text that is not written in quotes does not start with one. -/
theorem ne_inQuotes {s : List Char} (h : ¬ IsQuoted s) (t : List Char) : s ≠ inQuotes t := by
  rintro rfl
  rcases markup_or_bare_or_quoted (inQuotes t) with hmarkup | ⟨-, hbare⟩ | hquoted
  · obtain ⟨u, hu⟩ := exists_cons_of_isMarkup hmarkup
    exact absurd (List.cons.inj hu).1 (by decide)
  · exact not_mem_of_isBare hbare rfl (by decide) (by decide) List.mem_cons_self
  · exact h hquoted

/-- **Different texts are written alike exactly if they are in quotes and differ only in backslashes
in front of quotes.** -/
theorem quote_eq_quote_iff {s t : List Char} : quote s = quote t ↔ s = t ∨ AreAlike s t := by
  by_cases hs : IsQuoted s <;> by_cases ht : IsQuoted t
  · rw [quote_of_isQuoted hs, quote_of_isQuoted ht, inQuotes_eq_inQuotes_iff]
    constructor
    · intro h
      exact .inr ⟨hs, ht, h⟩
    · rintro (rfl | h)
      · rfl
      · exact h.2.2
  · rw [quote_of_isQuoted hs, quote_of_not_isQuoted ht]
    refine iff_of_false (ne_inQuotes ht s).symm ?_
    rintro (rfl | h)
    · exact ht hs
    · exact ht h.2.1
  · rw [quote_of_not_isQuoted hs, quote_of_isQuoted ht]
    refine iff_of_false (ne_inQuotes hs t) ?_
    rintro (rfl | h)
    · exact hs ht
    · exact hs h.1
  · rw [quote_of_not_isQuoted hs, quote_of_not_isQuoted ht]
    exact (or_iff_left fun h => hs h.1).symm

end ThreatTree.Dot
