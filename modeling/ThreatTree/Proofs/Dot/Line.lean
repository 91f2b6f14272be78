import ThreatTree.Dot.Content
import ThreatTree.Proofs.Dot.Identifier
import ThreatTree.Proofs.Text.Pieces

/-!
# Lines that are written and read

A text is read in three steps: into tokens, into parts (`parts?`), and into statements (`body?`).
A text *says* statements if these are read first, whatever statements follow it, and the reading
goes on behind it (`Says`). Texts in a row say their statements in a row (`Says.append`), so it is
enough to know what one line says: the attributes of the graph (`says_attributes`), a subject with
attributes (`says_about`), or an edge (`says_edge`).
-/

namespace ThreatTree.Dot

/-! ## Texts -/

/-- A text that is written bare or in quotes, and without escapes of its own. -/
def IsPlain (s : String) : Prop := '\\' ∉ s.toList ∧ isMarkup s.toList = false

instance (s : String) : Decidable (IsPlain s) := inferInstanceAs (Decidable (_ ∧ _))

theorem IsPlain.readsAs {s : String} (h : IsPlain s) :
    ReadsAs (quote s.toList) (written s.toList) := by
  rw [quote, h.2, if_neg Bool.false_ne_true]
  exact readsAs_quotePlain (isClosed_of_not_mem h.1)

def Value.IsPlain : Value → Prop
  | .label _ => True
  | .plain s => Dot.IsPlain s

/-- The identifier that is read where the value was written. -/
def Value.identifier : Value → Identifier
  | .label s => written (escape s.toList)
  | .plain s => written s.toList

theorem Value.IsPlain.readsAs {v : Value} (h : v.IsPlain) : ReadsAs v.render v.identifier := by
  cases v with
  | label s => exact readsAs_quotePlain (isClosed_escape s.toList)
  | plain s => exact Dot.IsPlain.readsAs h

/-! ## Tokens of attributes -/

namespace Attributes

/-- All names and values are written bare or in quotes. -/
def IsPlain (as : Attributes) : Prop := ∀ a ∈ as, Dot.IsPlain a.1 ∧ a.2.IsPlain

/-- The attributes as they are read. -/
def assignments (as : Attributes) : List Assignment :=
  as.map fun a => (written a.1.toList, a.2.identifier)

end Attributes

def Assignment.tokens (a : Assignment) : List Token :=
  [.identifier a.1, .equals, .identifier a.2]

theorem tokens?_attribute {a : String × Value} (hname : IsPlain a.1) (hvalue : a.2.IsPlain)
    {rest : List Char} (hrest : IsApart rest) :
    tokens? (quote a.1.toList ++ '=' :: a.2.render ++ rest)
      = (tokens? rest).map
          (Assignment.tokens (written a.1.toList, a.2.identifier) ++ ·) := by
  calc tokens? (quote a.1.toList ++ '=' :: a.2.render ++ rest)
      = tokens? (quote a.1.toList ++ '=' :: (a.2.render ++ rest)) := by
        rw [List.append_assoc, List.cons_append]
    _ = (tokens? ('=' :: (a.2.render ++ rest))).map (.identifier (written a.1.toList) :: ·) :=
        hname.readsAs _ (isApart_cons rfl _)
    _ = _ := by
        rw [tokens?, hvalue.readsAs rest hrest, Option.map_map, Option.map_map]
        rfl

theorem Attributes.render_cons (a : String × Value) {as : Attributes} (h : as ≠ []) :
    Attributes.render (a :: as)
      = quote a.1.toList ++ '=' :: a.2.render ++ [' '] ++ as.render := by
  rw [render, List.map_cons, Text.join_cons (by simpa using h), render]

theorem tokens?_attributes {as : Attributes} (h : as.IsPlain) {rest : List Char}
    (hrest : IsApart rest) :
    tokens? (as.render ++ rest)
      = (tokens? rest).map (as.assignments.flatMap Assignment.tokens ++ ·) := by
  induction as with
  | nil => exact Option.map_id'.symm
  | cons a as ih =>
    obtain ⟨⟨hname, hvalue⟩, has⟩ := List.forall_mem_cons.1 h
    cases as with
    | nil => exact tokens?_attribute hname hvalue hrest
    | cons b as =>
      rw [Attributes.render_cons a (List.cons_ne_nil b as), List.append_assoc, List.append_assoc,
        List.singleton_append, tokens?_attribute hname hvalue (isApart_cons rfl _),
        tokens?_blank (.inl rfl), ih has, Option.map_map]
      rfl

/-! ## Parts of statements -/

/-- The parts of a source text: tokens, and attributes in brackets. -/
def parts? (s : List Char) : Option (List Item) := (tokens? s).bind (items? none)

theorem parts?_of_tokens? {s rest : List Char} {t : Token}
    (h : tokens? s = (tokens? rest).map (t :: ·)) (hopen : t ≠ .openBracket)
    (hclose : t ≠ .closeBracket) : parts? s = (parts? rest).map (.token t :: ·) := by
  unfold parts?
  rw [h, Option.bind_map, Option.map_bind]
  congr 1
  funext ts
  simp only [Function.comp_apply]
  rw [items?]
  · exact hopen
  · exact hclose

theorem ReadsAs.parts? {s : List Char} {i : Identifier} (h : ReadsAs s i) {rest : List Char}
    (hrest : IsApart rest) :
    parts? (s ++ rest) = (Dot.parts? rest).map (.token (.identifier i) :: ·) :=
  parts?_of_tokens? (h rest hrest) (by simp) (by simp)

/-- Attributes in brackets are collected behind those that are there already. -/
theorem items?_bracketed (as bs : List Assignment) (rest : List Token) :
    items? (some as) (bs.flatMap Assignment.tokens ++ .closeBracket :: rest)
      = (items? none rest).map (.attributes (as ++ bs) :: ·) := by
  induction bs generalizing as with
  | nil => rw [List.flatMap_nil, List.nil_append, items?, List.append_nil]
  | cons b bs ih =>
    rw [List.flatMap_cons, List.append_assoc]
    show items? (some (as ++ [b])) (bs.flatMap Assignment.tokens ++ .closeBracket :: rest) = _
    rw [ih, List.append_assoc, List.singleton_append]

/-- The part that attributes in brackets are, if there are any. -/
def listItems (as : List Assignment) : List Item := if as.isEmpty then [] else [.attributes as]

theorem isApart_renderList (as : Attributes) {rest : List Char} (h : IsApart rest) :
    IsApart (as.renderList ++ rest) := by
  unfold Attributes.renderList
  split
  · exact h
  · exact isApart_cons rfl _

theorem parts?_renderList {as : Attributes} (h : as.IsPlain) {rest : List Char} :
    parts? (as.renderList ++ rest) = (parts? rest).map (listItems as.assignments ++ ·) := by
  cases as with
  | nil => exact Option.map_id'.symm
  | cons a as =>
    have hrender : Attributes.renderList (a :: as) ++ rest
        = ' ' :: '[' :: (Attributes.render (a :: as) ++ ']' :: rest) := by
      simp [Attributes.renderList]
    have htokens : tokens? (Attributes.renderList (a :: as) ++ rest)
        = (tokens? rest).map fun ts => .openBracket
          :: ((Attributes.assignments (a :: as)).flatMap Assignment.tokens
            ++ .closeBracket :: ts) := by
      rw [hrender, tokens?_blank (.inl rfl), tokens?,
        tokens?_attributes h (isApart_cons rfl rest), tokens?, Option.map_map, Option.map_map]
      rfl
    unfold parts?
    rw [htokens, Option.bind_map, Option.map_bind]
    congr 1
    funext ts
    exact items?_bracketed [] _ ts

/-! ## Lines -/

/-- A statement starts here, or the closing brace stands here. -/
def Opens : List Item → Prop
  | .token (.identifier _) :: _ => True
  | .token .closeBrace :: _ => True
  | _ => False

/-- If the text can be read, then it opens with a statement or with the closing brace. -/
def OpensText (s : List Char) : Prop := ∀ is, parts? s = some is → Opens is

/-- The statements of a text that goes on to the closing brace. -/
def body? (s : List Char) : Option (List Statement) := (parts? s).bind statements?

/-- The text is read as statements, whatever statements follow it. -/
def Says (s : List Char) (ss : List Statement) : Prop :=
  ∀ rest, OpensText rest → OpensText (s ++ rest) ∧ body? (s ++ rest) = (body? rest).map (ss ++ ·)

theorem Says.nil : Says [] [] := fun _ hrest => ⟨hrest, Option.map_id'.symm⟩

theorem Says.append {s t : List Char} {ss ts : List Statement} (hs : Says s ss)
    (ht : Says t ts) : Says (s ++ t) (ss ++ ts) := by
  intro rest hrest
  obtain ⟨hopen, hread⟩ := ht rest hrest
  obtain ⟨hopen', hread'⟩ := hs (t ++ rest) hopen
  rw [List.append_assoc]
  refine ⟨hopen', ?_⟩
  rw [hread', hread, Option.map_map]
  simp [Function.comp_def]

theorem says_flatMap {α : Type} {text : α → List Char} {statement : α → Statement} {l : List α}
    (h : ∀ x ∈ l, Says (text x) [statement x]) : Says (l.flatMap text) (l.map statement) := by
  induction l with
  | nil => exact Says.nil
  | cons x l ih =>
    obtain ⟨hx, hl⟩ := List.forall_mem_cons.1 h
    exact hx.append (ih hl)

/-- What a text says, from its parts: they start with an identifier and are read as statements. -/
theorem says_of_parts? {s : List Char} {i : Identifier} {its : List Item} {ss : List Statement}
    (hparts : ∀ rest, parts? (s ++ rest) = (parts? rest).map (.token (.identifier i) :: its ++ ·))
    (hstatements : ∀ rest, Opens rest →
      statements? (.token (.identifier i) :: its ++ rest) = (statements? rest).map (ss ++ ·)) :
    Says s ss := by
  intro rest hrest
  constructor
  · intro is his
    rw [hparts] at his
    obtain ⟨is', -, rfl⟩ := Option.map_eq_some_iff.1 his
    trivial
  · unfold body?
    rw [hparts, Option.bind_map, Option.map_bind]
    exact Option.bind_congr fun is his => hstatements is (hrest is his)

theorem parts?_blank {c : Char} (h : c = ' ' ∨ c = '\t' ∨ c = '\n') (rest : List Char) :
    parts? (c :: rest) = parts? rest := by
  rw [parts?, tokens?_blank h, ← parts?]

/-- A line without its tabulator and its line feed. -/
theorem parts?_statement {s : List Char} {its : List Item}
    (h : ∀ rest, IsApart rest → parts? (s ++ rest) = (parts? rest).map (its ++ ·))
    (rest : List Char) :
    parts? (Digraph.statement s ++ rest) = (parts? rest).map (its ++ ·) := by
  have hline : Digraph.statement s ++ rest = '\t' :: (s ++ '\n' :: rest) := by
    simp [Digraph.statement]
  rw [hline, parts?_blank (.inr (.inl rfl)), h _ (isApart_cons rfl rest),
    parts?_blank (.inr (.inr rfl))]

/-! ### A subject with attributes -/

theorem statements?_about (i : Identifier) (as : List Assignment) {rest : List Item}
    (h : Opens rest) :
    statements? (.token (.identifier i) :: listItems as ++ rest)
      = (statements? rest).map (about i as :: ·) := by
  cases as with
  | nil =>
    show statements? (.token (.identifier i) :: rest) = _
    match rest, h with
    | .token (.identifier _) :: _, _ => rfl
    | .token .closeBrace :: _, _ => rfl
  | cons a as => rfl

theorem says_about {s : List Char} {i : Identifier} (hs : ReadsAs s i) {as : Attributes}
    (has : as.IsPlain) :
    Says (Digraph.statement (s ++ as.renderList)) [about i as.assignments] := by
  refine says_of_parts? (parts?_statement fun rest hrest => ?_)
    fun rest hrest => statements?_about i as.assignments hrest
  rw [List.append_assoc, hs.parts? (isApart_renderList as hrest), parts?_renderList has,
    Option.map_map]
  rfl

/-! ### Edges -/

theorem statements?_edge (i j : Identifier) (as : List Assignment) {rest : List Item}
    (h : Opens rest) :
    statements? (.token (.identifier i) :: (.token .arrow :: .token (.identifier j)
        :: listItems as) ++ rest)
      = (statements? rest).map (.edge i j as :: ·) := by
  cases as with
  | nil =>
    show statements? (.token (.identifier i) :: .token .arrow :: .token (.identifier j) :: rest) = _
    match rest, h with
    | .token (.identifier _) :: _, _ => rfl
    | .token .closeBrace :: _, _ => rfl
  | cons a as => rfl

theorem parts?_arrow (rest : List Char) :
    parts? (" -> ".toList ++ rest) = (parts? rest).map (.token .arrow :: ·) := by
  show parts? (' ' :: '-' :: '>' :: ' ' :: rest) = _
  rw [parts?_blank (.inl rfl), ← parts?_blank (.inl rfl) rest]
  exact parts?_of_tokens? (by rw [tokens?]) (by simp) (by simp)

theorem says_edge {s t : List Char} {i j : Identifier} (hs : ReadsAs s i) (ht : ReadsAs t j)
    {as : Attributes} (has : as.IsPlain) :
    Says (Digraph.statement (s ++ " -> ".toList ++ t ++ as.renderList))
      [.edge i j as.assignments] := by
  refine says_of_parts? (parts?_statement fun rest hrest => ?_)
    fun rest hrest => statements?_edge i j as.assignments hrest
  have harrow : IsApart (" -> ".toList ++ (t ++ (as.renderList ++ rest))) := isApart_cons rfl _
  rw [List.append_assoc, List.append_assoc, List.append_assoc, hs.parts? harrow, parts?_arrow,
    ht.parts? (isApart_renderList as hrest), parts?_renderList has, Option.map_map,
    Option.map_map, Option.map_map]
  rfl

/-! ### Attributes of the graph -/

def Assignment.items (a : Assignment) : List Item :=
  [.token (.identifier a.1), .token .equals, .token (.identifier a.2)]

theorem items?_assignments (as : List Assignment) (rest : List Token) :
    items? none (as.flatMap Assignment.tokens ++ rest)
      = (items? none rest).map (as.flatMap Assignment.items ++ ·) := by
  induction as with
  | nil => exact Option.map_id'.symm
  | cons a as ih =>
    rw [List.flatMap_cons, List.append_assoc]
    show items? none (.identifier a.1 :: .equals :: .identifier a.2
      :: (as.flatMap Assignment.tokens ++ rest)) = _
    rw [items?, items?, items?, ih, Option.map_map, Option.map_map, Option.map_map]
    · rfl
    all_goals exact nofun

theorem statements?_assignments (as : List Assignment) (rest : List Item) :
    statements? (as.flatMap Assignment.items ++ rest)
      = (statements? rest).map (as.map .assignment ++ ·) := by
  induction as with
  | nil => exact Option.map_id'.symm
  | cons a as ih =>
    rw [List.flatMap_cons, List.append_assoc]
    show (statements? (as.flatMap Assignment.items ++ rest)).map (.assignment (a.1, a.2) :: ·) = _
    rw [ih, Option.map_map]
    rfl

theorem says_attributes {as : Attributes} (h : as.IsPlain) :
    Says (Digraph.statement as.render) (as.assignments.map .assignment) := by
  have hparts (rest : List Char) : parts? (Digraph.statement as.render ++ rest)
      = (parts? rest).map (as.assignments.flatMap Assignment.items ++ ·) := by
    refine parts?_statement (fun rest hrest => ?_) rest
    unfold parts?
    rw [tokens?_attributes h hrest, Option.bind_map, Option.map_bind]
    congr 1
    funext ts
    exact items?_assignments _ ts
  cases as with
  | nil =>
    intro rest hrest
    have hsame : parts? (Digraph.statement (Attributes.render []) ++ rest) = parts? rest :=
      (hparts rest).trans Option.map_id'
    unfold OpensText body?
    rw [hsame]
    exact ⟨hrest, Option.map_id'.symm⟩
  | cons a as =>
    exact says_of_parts? hparts fun rest _ =>
      statements?_assignments (Attributes.assignments (a :: as)) rest

end ThreatTree.Dot
