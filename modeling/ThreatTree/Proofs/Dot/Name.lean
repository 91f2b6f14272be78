import ThreatTree.Proofs.Dot.Quoting

/-!
# What whole texts are read as

A whole text is read as one identifier, whatever follows it (`readsAs_quote`). Markup needs that its
brackets balance for this: it is cut off where the last open bracket is closed
(`cutMarkup_append`).

The text of that identifier is the name by which a node is known. Whole texts have the same name
only if they are written alike (`text_identifier_eq_iff`). For texts that are not in quotes the name
is the text itself, and what a text in quotes shows would be written in quotes, too
(`isQuoted_unescapeQuotes`), so it is not the name of one of the others.
-/

namespace ThreatTree.Dot

/-! ## Reading -/

/-- The identifier that is read where a whole text was written. -/
def identifier (s : List Char) : Identifier := if isMarkup s then .markup s else written s

theorem cutMarkup_cons {c : Char} (hopen : c ≠ '<') (hclose : c ≠ '>') (depth : Nat)
    (s : List Char) :
    cutMarkup depth (c :: s) = (cutMarkup depth s).map fun p => (c :: p.1, p.2) := by
  rw [cutMarkup]
  · exact hopen
  · exact hclose

/-- Markup is cut off behind the bracket that closes the last of the open ones. -/
theorem cutMarkup_append {depth : Nat} (hdepth : 0 < depth) {s : List Char}
    (hend : s.count '>' = s.count '<' + depth)
    (hinside : ∀ k < s.length, (s.take k).count '>' < (s.take k).count '<' + depth)
    (rest : List Char) : cutMarkup depth (s ++ rest) = some (s, rest) := by
  induction s generalizing depth with
  | nil =>
    simp only [List.count_nil] at hend
    omega
  | cons c s ih =>
    have hlater (k : Nat) (hk : k < s.length) := hinside (k + 1) (by simpa using hk)
    simp only [List.take_succ_cons, List.count_cons] at hend hlater
    rw [List.cons_append]
    by_cases hopen : c = '<'
    · subst hopen
      have hrest : cutMarkup (depth + 1) (s ++ rest) = some (s, rest) := by
        refine ih (Nat.succ_pos depth) ?_ fun k hk => ?_
        · simp at hend
          omega
        · have hk := hlater k hk
          simp at hk
          omega
      rw [cutMarkup, hrest, Option.map_some]
    · by_cases hclose : c = '>'
      · subst hclose
        rw [cutMarkup]
        by_cases hlast : depth ≤ 1
        · -- The bracket closes the last open one, so nothing can follow it inside.
          have hnil : s = [] := by
            by_contra hne
            have hk := hlater 0 (List.length_pos_iff.2 hne)
            simp at hk
            omega
          subst hnil
          rw [if_pos hlast, List.nil_append]
        · have hrest : cutMarkup (depth - 1) (s ++ rest) = some (s, rest) := by
            refine ih (by omega) ?_ fun k hk => ?_
            · simp at hend
              omega
            · have hk := hlater k hk
              simp at hk
              omega
          rw [if_neg hlast, hrest, Option.map_some]
      · rw [cutMarkup_cons hopen hclose, ih hdepth ?_ fun k hk => ?_, Option.map_some]
        · simpa [hopen, hclose] using hend
        · simpa [hopen, hclose] using hlater k hk

theorem readsAs_markup {s : List Char} (h : IsBalanced ('<' :: s)) :
    ReadsAs ('<' :: s) (.markup ('<' :: s)) := by
  intro rest _
  obtain ⟨hend, hinside⟩ := h
  have hcut : cutMarkup 1 (s ++ rest) = some (s, rest) := by
    refine cutMarkup_append Nat.one_pos ?_ (fun k hk => ?_) rest
    · simpa using hend
    · have hk := hinside (k + 1) (by simpa using hk) (Nat.succ_pos k)
      simpa using hk
  rw [List.cons_append, tokens?]
  split
  · next hnone => exact absurd hcut (by simp [hnone])
  · next p hp =>
    obtain rfl : (s, rest) = p := Option.some.inj (hcut.symm.trans hp)
    rfl

/-- **A whole text is read as one identifier, whatever follows it.** -/
theorem readsAs_quote {s : List Char} (h : IsWhole s) : ReadsAs (quote s) (identifier s) := by
  rcases markup_or_bare_or_quoted s with hmarkup | ⟨hmarkup, hbare⟩ | hquoted
  · rw [quote_of_isMarkup hmarkup, identifier, if_pos hmarkup]
    obtain ⟨t, rfl⟩ := exists_cons_of_isMarkup hmarkup
    exact readsAs_markup (h.1 hmarkup)
  · have hclosed : isClosed s = true :=
      isClosed_of_not_mem (not_mem_of_isBare hbare rfl (by decide) (by decide))
    rw [quote, identifier, hmarkup]
    exact readsAs_quotePlain hclosed
  · rw [quote, identifier, hquoted.1]
    exact readsAs_quotePlain (h.2.2 hquoted)

theorem text_identifier_of_isQuoted {s : List Char} (h : IsQuoted s) :
    (identifier s).text = unescapeQuotes s := by
  rw [identifier, h.1, if_neg Bool.false_ne_true, written, h.2, if_neg Bool.false_ne_true,
    Identifier.text, unescapeQuotes_escapeQuotes_eq]

theorem text_identifier_of_not_isQuoted {s : List Char} (hwhole : IsWhole s)
    (h : ¬ IsQuoted s) : (identifier s).text = s := by
  rcases markup_or_bare_or_quoted s with hmarkup | ⟨hmarkup, hbare⟩ | hquoted
  · rw [identifier, if_pos hmarkup, Identifier.text]
  · rw [identifier, hmarkup, if_neg Bool.false_ne_true, written, if_pos hbare, Identifier.text]
    exact dropLineFeed_eq_iff.2 (hwhole.2.1 hmarkup hbare)
  · exact absurd hquoted h

/-! ## What texts in quotes show -/

theorem unescapeQuotes_eq_self_or_mem (s : List Char) :
    unescapeQuotes s = s ∨ '"' ∈ unescapeQuotes s := by
  induction s using escape_induction with
  | nil => exact .inl rfl
  | lone => exact .inl rfl
  | escaped c s ih =>
    by_cases hq : c = '"'
    · subst hq
      exact .inr List.mem_cons_self
    · rw [unescapeQuotes_escaped hq]
      refine ih.imp (fun heq => ?_) fun hmem =>
        List.mem_cons_of_mem _ (List.mem_cons_of_mem _ hmem)
      rw [heq]
  | plain c s hb ih =>
    rw [unescapeQuotes_cons hb]
    exact ih.imp (congrArg _) (List.mem_cons_of_mem _)

theorem head?_of_unescapeQuotes {s : List Char} {c : Char} (hq : c ≠ '"')
    (h : (unescapeQuotes s).head? = some c) : s.head? = some c := by
  cases s using escape_induction with
  | nil => exact h
  | lone => exact h
  | escaped d s =>
    by_cases hd : d = '"'
    · subst hd
      exact absurd (Option.some.inj h).symm hq
    · rwa [unescapeQuotes_escaped hd] at h
  | plain d s hb => rwa [unescapeQuotes_cons hb] at h

/-- The last character is shown last, and unless it is a quote, nothing else changes in front
of it. -/
theorem unescapeQuotes_concat (s : List Char) (c : Char) :
    ∃ front, unescapeQuotes (s ++ [c]) = front ++ [c]
      ∧ (c ≠ '"' → front = unescapeQuotes s) := by
  induction s using escape_induction with
  | nil =>
    refine ⟨[], ?_, fun _ => rfl⟩
    by_cases hb : c = '\\'
    · subst hb
      rfl
    · exact unescapeQuotes_cons hb []
  | lone =>
    by_cases hq : c = '"'
    · subst hq
      exact ⟨[], rfl, fun h => absurd rfl h⟩
    · exact ⟨['\\'], unescapeQuotes_escaped hq [], fun _ => rfl⟩
  | escaped d s ih =>
    obtain ⟨front, hfront, hsame⟩ := ih
    rw [List.cons_append, List.cons_append]
    by_cases hq : d = '"'
    · subst hq
      exact ⟨'"' :: front, by rw [unescapeQuotes, hfront, List.cons_append],
        fun h => by rw [unescapeQuotes, hsame h]⟩
    · exact ⟨'\\' :: d :: front,
        by rw [unescapeQuotes_escaped hq, hfront, List.cons_append, List.cons_append],
        fun h => by rw [unescapeQuotes_escaped hq, hsame h]⟩
  | plain d s hb ih =>
    obtain ⟨front, hfront, hsame⟩ := ih
    exact ⟨d :: front, by rw [List.cons_append, unescapeQuotes_cons hb, hfront, List.cons_append],
      fun h => by rw [unescapeQuotes_cons hb, hsame h]⟩

/-- What stands last in the text that is shown stands last in the text, if it is no quote. -/
theorem exists_of_unescapeQuotes_concat {s front : List Char} {c : Char} (hq : c ≠ '"')
    (h : unescapeQuotes s = front ++ [c]) : ∃ t, s = t ++ [c] ∧ unescapeQuotes t = front := by
  rcases List.eq_nil_or_concat s with rfl | ⟨t, d, rfl⟩
  · exact absurd h (by simp [unescapeQuotes])
  · obtain ⟨front', hfront, hsame⟩ := unescapeQuotes_concat t d
    rw [List.concat_eq_append, hfront] at h
    obtain ⟨rfl, hd⟩ := List.append_inj' h rfl
    obtain rfl : d = c := by simpa using hd
    exact ⟨t, List.concat_eq_append, (hsame hq).symm⟩

theorem isMarkup_iff {s : List Char} :
    isMarkup s = true ↔ s.head? = some '<'
      ∧ ((∃ front, s = front ++ ['>']) ∨ ∃ front, s = front ++ ['>'] ++ ['\n']) := by
  have hbody {t : List Char} : (t.head? == some '<' && t.getLast? == some '>'
      && decide (t.length ≥ 2)) = true ↔ t.head? = some '<' ∧ ∃ front, t = front ++ ['>'] := by
    simp only [Bool.and_eq_true, beq_iff_eq, decide_eq_true_eq, List.getLast?_eq_some_iff]
    refine ⟨fun h => h.1, fun h => ⟨h, ?_⟩⟩
    obtain ⟨hhead, front, rfl⟩ := h
    cases front with
    | nil => exact absurd hhead (by decide)
    | cons c front => simp
  unfold isMarkup
  rw [hbody]
  rcases dropLineFeed_cases s with ⟨hs, hlast⟩ | ⟨hs, -⟩
  · rw [hs]
    refine and_congr_right fun _ => (or_iff_left ?_).symm
    rintro ⟨front, rfl⟩
    exact hlast (by simp)
  · generalize dropLineFeed s = body at hs
    subst hs
    constructor
    · rintro ⟨hhead, front, rfl⟩
      exact ⟨by rw [List.head?_append, hhead, Option.some_or], .inr ⟨front, rfl⟩⟩
    · rintro ⟨hhead, ⟨front, h⟩ | ⟨front, h⟩⟩
      · exact absurd (List.append_inj' h rfl).2 (by decide)
      · obtain rfl := List.append_cancel_right h
        refine ⟨?_, front, rfl⟩
        rw [List.head?_append] at hhead
        cases front <;> exact hhead

theorem isMarkup_of_unescapeQuotes {s : List Char} (h : isMarkup (unescapeQuotes s) = true) :
    isMarkup s = true := by
  rw [isMarkup_iff] at h ⊢
  obtain ⟨hhead, hlast⟩ := h
  refine ⟨head?_of_unescapeQuotes (by decide) hhead, ?_⟩
  rcases hlast with ⟨front, hlast⟩ | ⟨front, hlast⟩
  · obtain ⟨t, rfl, -⟩ := exists_of_unescapeQuotes_concat (by decide) hlast
    exact .inl ⟨t, rfl⟩
  · obtain ⟨t, rfl, ht⟩ := exists_of_unescapeQuotes_concat (by decide) hlast
    obtain ⟨t, rfl, -⟩ := exists_of_unescapeQuotes_concat (by decide) ht
    exact .inr ⟨t, rfl⟩

/-- What a text in quotes shows would itself be written in quotes. -/
theorem isQuoted_unescapeQuotes {s : List Char} (h : IsQuoted s) :
    IsQuoted (unescapeQuotes s) := by
  constructor
  · exact Bool.eq_false_iff.2 fun hmarkup =>
      absurd (isMarkup_of_unescapeQuotes hmarkup) (by simp [h.1])
  · rw [Bool.eq_false_iff]
    intro hbare
    rcases unescapeQuotes_eq_self_or_mem s with heq | hmem
    · rw [heq, h.2] at hbare
      exact Bool.false_ne_true hbare
    · exact not_mem_of_isBare hbare rfl (by decide) (by decide) hmem

/-! ## Names -/

/-- **Different whole texts are read as different texts, unless they are written alike.** -/
theorem text_identifier_eq_iff {s t : List Char} (hs : IsWhole s) (ht : IsWhole t) :
    (identifier s).text = (identifier t).text ↔ s = t ∨ AreAlike s t := by
  by_cases hs' : IsQuoted s <;> by_cases ht' : IsQuoted t
  · rw [text_identifier_of_isQuoted hs', text_identifier_of_isQuoted ht']
    constructor
    · intro h
      exact .inr ⟨hs', ht', h⟩
    · rintro (rfl | h)
      · rfl
      · exact h.2.2
  · rw [text_identifier_of_isQuoted hs', text_identifier_of_not_isQuoted ht ht']
    refine iff_of_false (fun h => ht' (h ▸ isQuoted_unescapeQuotes hs')) ?_
    rintro (rfl | h)
    · exact ht' hs'
    · exact ht' h.2.1
  · rw [text_identifier_of_not_isQuoted hs hs', text_identifier_of_isQuoted ht']
    refine iff_of_false (fun h => hs' (h ▸ isQuoted_unescapeQuotes ht')) ?_
    rintro (rfl | h)
    · exact hs' ht'
    · exact hs' h.1
  · rw [text_identifier_of_not_isQuoted hs hs', text_identifier_of_not_isQuoted ht ht']
    exact (or_iff_left fun h => hs' h.1).symm

end ThreatTree.Dot
