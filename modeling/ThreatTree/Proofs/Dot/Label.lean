import ThreatTree.Proofs.Dot.Digraph
import ThreatTree.Proofs.Dot.Quoting

/-!
# Labels that are written

A label is written with its backslashes doubled. So none of its own quotes has an odd number of
backslashes in front, and no escape is open at its end. `Shows t s` says that the text `t` is one
identifier of DOT, no markup, and shows the label `s`.

What is written for a label shows the label and nothing else, unless the label loses a line feed at
its end (`shows_quoteLabel_iff`). Different labels are written differently, even then
(`quoteLabel_inj`).
-/

namespace ThreatTree.Dot

variable {s t : List Char}

/-! ## Texts that show a label -/

/-- The text is one identifier of DOT, and shows the label. A name that is no keyword and a numeral
show themselves. A text in quotes, which ends at the first quote that is not escaped, shows what is
inside it without the backslashes that stand, from the left, in front of quotes and backslashes. -/
inductive Shows : List Char → List Char → Prop
  | name {s : List Char} : isName s = true → s.map Char.toLower ∉ keywords → Shows s s
  | numeral {s : List Char} : isNumeral s = true → Shows s s
  | quoted {inside : List Char} : cutQuoted (inside ++ ['"']) = some (inside, []) →
      Shows ('"' :: inside ++ ['"']) (unescape inside)

/-- The label that was written, be it in quotes or not. -/
def decode : List Char → List Char
  | '"' :: rest => unescape rest.dropLast
  | s => s

theorem decode_of_head? (h : t.head? ≠ some '"') : decode t = t := by
  unfold decode
  split
  · exact absurd rfl h
  · rfl

theorem decode_quoted (inside : List Char) : decode ('"' :: inside ++ ['"']) = unescape inside := by
  rw [List.cons_append, decode, List.dropLast_concat]

/-- An identifier that is no markup shows one label. -/
theorem shows_iff : Shows t s ↔ IsIdentifier t ∧ t.head? ≠ some '<' ∧ s = decode t := by
  constructor
  · intro h
    cases h with
    | name hname hkeyword =>
      obtain ⟨hquote, hmarkup⟩ := head?_of_isName_or_isNumeral (s := s) (by simp [hname])
      exact ⟨.name hname hkeyword, hmarkup, (decode_of_head? hquote).symm⟩
    | numeral hnumeral =>
      obtain ⟨hquote, hmarkup⟩ := head?_of_isName_or_isNumeral (s := s) (by simp [hnumeral])
      exact ⟨.numeral hnumeral, hmarkup, (decode_of_head? hquote).symm⟩
    | quoted hcut => exact ⟨.quoted hcut, by simp, (decode_quoted _).symm⟩
  · rintro ⟨hid, hmarkup, rfl⟩
    cases hid with
    | name hname hkeyword =>
      rw [decode_of_head? (head?_of_isName_or_isNumeral (by simp [hname])).1]
      exact .name hname hkeyword
    | numeral hnumeral =>
      rw [decode_of_head? (head?_of_isName_or_isNumeral (by simp [hnumeral])).1]
      exact .numeral hnumeral
    | quoted hcut =>
      rw [decode_quoted]
      exact .quoted hcut
    | markup _ => exact absurd rfl hmarkup

/-! ## What is written for a label -/

theorem quoteLabel_of_isBare (h : isBare s = true) : quoteLabel s = s := by
  rw [quoteLabel, quotePlain, isBare_escape, if_pos h, escape_of_isBare h]

theorem quoteLabel_of_not_isBare (h : isBare s = false) : quoteLabel s = inQuotes (escape s) := by
  rw [quoteLabel, quotePlain, isBare_escape, if_neg (by simp [h])]

theorem head?_ne_of_isBare (h : isBare s = true) {c : Char} (hbare : isBareChar c = false)
    (hminus : c ≠ '-') (hfeed : c ≠ '\n') : s.head? ≠ some c := fun hhead =>
  not_mem_of_isBare h hbare hminus hfeed (List.mem_of_head? hhead)

/-- A label is never written as markup. -/
theorem head?_quoteLabel (s : List Char) : (quoteLabel s).head? ≠ some '<' := by
  cases hbare : isBare s with
  | true =>
    rw [quoteLabel_of_isBare hbare]
    exact head?_ne_of_isBare hbare rfl (by decide) (by decide)
  | false =>
    rw [quoteLabel_of_not_isBare hbare, inQuotes]
    simp

/-- The doubled backslashes keep a label from closing its quotes and from opening an escape, so
that only a line feed behind a bare label is no part of the identifier. -/
theorem isIdentifier_quoteLabel_iff : IsIdentifier (quoteLabel s) ↔ ¬ LosesEnd s := by
  cases hbare : isBare s with
  | true => simp [quoteLabel_of_isBare hbare, isIdentifier_of_isBare_iff hbare, LosesEnd, hbare]
  | false =>
    rw [quoteLabel_of_not_isBare hbare, isIdentifier_inQuotes_iff]
    refine iff_of_true (isClosed_escape s) ?_
    rintro ⟨hbare', -⟩
    exact absurd hbare' (by simp [hbare])

theorem decode_quoteLabel (s : List Char) : decode (quoteLabel s) = s := by
  cases hbare : isBare s with
  | true =>
    rw [quoteLabel_of_isBare hbare,
      decode_of_head? (head?_ne_of_isBare hbare rfl (by decide) (by decide))]
  | false =>
    rw [quoteLabel_of_not_isBare hbare, inQuotes, decode_quoted, unescape_escapeQuotes_escape]

/-- **What is written for a label shows the label and nothing else, exactly if the label keeps its
end.** -/
theorem shows_quoteLabel_iff : Shows (quoteLabel s) t ↔ ¬ LosesEnd s ∧ t = s := by
  rw [shows_iff, isIdentifier_quoteLabel_iff, decode_quoteLabel, and_iff_right (head?_quoteLabel s)]

/-- **Different labels are written differently.** -/
theorem quoteLabel_inj : quoteLabel s = quoteLabel t ↔ s = t :=
  (Function.LeftInverse.injective decode_quoteLabel).eq_iff

/-! ## Where a label is written -/

/-- Behind `front`, the text has a label for the value of an attribute, and nothing that carries
the value on. -/
def SetsLabel (text front : List Char) (label : String) : Prop :=
  ∃ rest, text = front ++ ("label=".toList ++ (quoteLabel label.toList ++ rest)) ∧ IsApart rest

theorem SetsLabel.append {text front : List Char} {label : String}
    (h : SetsLabel text front label) (before : List Char) :
    SetsLabel (before ++ text) (before ++ front) label := by
  obtain ⟨rest, rfl, hapart⟩ := h
  exact ⟨rest, (List.append_assoc ..).symm, hapart⟩

theorem setsLabel_render (label : String) (as : Attributes) {more : List Char}
    (h : IsApart more) :
    SetsLabel (Attributes.render (("label", .label label) :: as) ++ more) [] label := by
  have hname : quote "label".toList ++ '=' :: (Value.label label).render
      = "label=".toList ++ quoteLabel label.toList := by
    have hquote : quote "label".toList = "label".toList := by decide
    have hequals : "label=".toList = "label".toList ++ ['='] := by decide
    rw [hquote, hequals, List.append_assoc]
    rfl
  cases as with
  | nil =>
    have hrender : Attributes.render [("label", .label label)]
        = quote "label".toList ++ '=' :: (Value.label label).render := rfl
    refine ⟨more, ?_, h⟩
    rw [hrender, hname, List.nil_append, List.append_assoc]
  | cons a as =>
    refine ⟨' ' :: (Attributes.render (a :: as) ++ more), ?_, isApart_cons rfl _⟩
    rw [Attributes.render_cons _ (List.cons_ne_nil a as), hname]
    simp only [List.append_assoc, List.nil_append, List.cons_append]

/-- A label may have other attributes in front of it. -/
theorem exists_setsLabel_render (before : Attributes) (label : String) (as : Attributes)
    {more : List Char} (h : IsApart more) :
    ∃ front, SetsLabel (Attributes.render (before ++ ("label", .label label) :: as) ++ more) front
      label := by
  induction before with
  | nil => exact ⟨[], setsLabel_render label as h⟩
  | cons a before ih =>
    obtain ⟨front, hlabel⟩ := ih
    rw [List.cons_append, Attributes.render_cons a (by simp), List.append_assoc]
    exact ⟨_, hlabel.append _⟩

/-- A label of the graph is set in front of its nodes and edges. -/
theorem Digraph.exists_setsLabel {g : Digraph} {before as : Attributes} {label : String}
    (h : g.graphAttributes = before ++ ("label", .label label) :: as) :
    ∃ front, SetsLabel (g.opening ++ g.attributeLines) front label := by
  have hlines : g.attributeLines = ['\t'] ++ (g.graphAttributes.render
      ++ '\n' :: (statement ("node".toList ++ g.nodeAttributes.renderList)
        ++ statement ("edge".toList ++ g.edgeAttributes.renderList))) := by
    rw [attributeLines, statement.eq_def g.graphAttributes.render]
    simp only [List.append_assoc, List.cons_append, List.nil_append]
  obtain ⟨front, hlabel⟩ := exists_setsLabel_render before label as
    (isApart_cons (c := '\n') rfl (statement ("node".toList ++ g.nodeAttributes.renderList)
      ++ statement ("edge".toList ++ g.edgeAttributes.renderList)))
  rw [hlines, h]
  exact ⟨_, (hlabel.append ['\t']).append g.opening⟩

/-- A line whose list of attributes starts with a label. -/
theorem setsLabel_statement (before : List Char) (label : String) (as : Attributes) :
    SetsLabel (Digraph.statement
        (before ++ Attributes.renderList (("label", .label label) :: as)))
      ('\t' :: (before ++ [' ', '['])) label := by
  have hlabel := (setsLabel_render label as (isApart_cons (c := ']') rfl ['\n'])).append
    ('\t' :: (before ++ [' ', '[']))
  rw [List.append_nil] at hlabel
  have hlist : Attributes.renderList (("label", .label label) :: as)
      = [' ', '['] ++ Attributes.render (("label", .label label) :: as) ++ [']'] := rfl
  rw [Digraph.statement, hlist]
  simpa only [List.append_assoc, List.cons_append, List.nil_append] using hlabel

end ThreatTree.Dot
