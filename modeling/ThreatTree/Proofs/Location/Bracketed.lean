import ThreatTree.Location.Bracketed
import ThreatTree.Proofs.Document.Outline
import ThreatTree.Proofs.Location.Line

/-!
# Lists in brackets are read item by item

An item of a list in brackets can be written in six ways: the id alone or in quotes of two kinds,
and each of them in braces with a label. Where the ids are names (`IsName`), the reader takes from
each item the place of its id and the whole id (`bracketItem_text`): no end of an id is seen inside
a name, since a colon in it goes before a character of the name.

The column of an item is counted through all items in front of it (`findItem?_texts`). So a
reference is found at the first item that has the id, and nowhere else
(`bracketReference?_line`).
-/

namespace ThreatTree.Location.Bracketed

open Text

/-! ## Names -/

/-- ASCII letters, digits, underscores, hyphens and points, and single colons between two of
them. -/
inductive IsName : List Char → Prop
  | single {c : Char} : isPlain c = true → IsName [c]
  | cons {c : Char} {s : List Char} : isPlain c = true → IsName s → IsName (c :: s)
  | colon {c : Char} {s : List Char} : isPlain c = true → IsName s → IsName (c :: ':' :: s)

namespace IsName

variable {s : List Char}

theorem exists_cons (h : IsName s) : ∃ c rest, s = c :: rest ∧ isPlain c = true := by
  cases h with
  | single hc => exact ⟨_, _, rfl, hc⟩
  | cons hc => exact ⟨_, _, rfl, hc⟩
  | colon hc => exact ⟨_, _, rfl, hc⟩

theorem not_mem (h : IsName s) {k : Char} (hk : isPlain k = false) (hcolon : k ≠ ':') :
    k ∉ s := by
  induction h with
  | single hc => simpa using (ne_of_isPlain hc hk).symm
  | cons hc _ ih => simpa using ⟨(ne_of_isPlain hc hk).symm, ih⟩
  | colon hc _ ih => simpa using ⟨(ne_of_isPlain hc hk).symm, hcolon, ih⟩

theorem atBlankOrEnd_append (h : IsName s) (t : List Char) : atBlankOrEnd (s ++ t) = false := by
  obtain ⟨c, rest, rfl, hc⟩ := h.exists_cons
  exact isBlank_of_isPlain hc

theorem append_colon {t : List Char} (hs : IsName s) (ht : IsName t) : IsName (s ++ ':' :: t) := by
  induction hs with
  | single hc => exact .colon hc ht
  | cons hc _ ih => exact .cons hc ih
  | colon hc _ ih => exact .colon hc ih

end IsName

theorem isName_of_isPlainId {s : List Char} (h : IsPlainId s) : IsName s := by
  obtain ⟨hne, hplain⟩ := h
  induction s with
  | nil => exact absurd rfl hne
  | cons c s ih =>
    rw [List.forall_mem_cons] at hplain
    cases s with
    | nil => exact .single hplain.1
    | cons d s => exact .cons hplain.1 (ih (by simp) hplain.2)

/-! ## Ends of ids -/

theorem isQuote_of_isPlain {c : Char} (h : isPlain c = true) : isQuote c = false := by
  rw [isQuote, Bool.or_eq_false_iff, beq_eq_false_iff_ne, beq_eq_false_iff_ne]
  exact ⟨ne_of_isPlain h (by decide), ne_of_isPlain h (by decide)⟩

theorem endsId_cons_of_isPlain {c : Char} (h : isPlain c = true) (s : List Char) :
    endsId (c :: s) = false := by
  have hbrace : (c == '\x7d') = false := beq_false_of_ne (ne_of_isPlain h (by decide))
  have hcolon : (c == ':') = false := beq_false_of_ne (ne_of_isPlain h (by decide))
  rw [endsId, trimStart_cons_of_not_blank (isBlank_of_isPlain h)]
  simp only [hbrace, hcolon, Bool.false_and, Bool.or_false]

/-- A colon ends no id in front of a name. -/
theorem endsId_colon {s : List Char} (h : IsName s) (t : List Char) :
    endsId (':' :: (s ++ t)) = false := by
  rw [endsId, trimStart_cons_of_not_blank (by decide)]
  simp only [h.atBlankOrEnd_append t]
  decide

theorem bareId_of_endsId {t : List Char} (h : endsId t = true) : bareId t = [] := by
  cases t with
  | nil => rfl
  | cons c t => rw [bareId, if_pos h]

/-- A name is read up to where it ends. -/
theorem bareId_append {s t : List Char} (h : IsName s) (ht : endsId t = true) :
    bareId (s ++ t) = s := by
  induction h with
  | single hc =>
    rw [List.singleton_append, bareId, endsId_cons_of_isPlain hc, if_neg (by decide),
      bareId_of_endsId ht]
  | cons hc _ ih =>
    rw [List.cons_append, bareId, endsId_cons_of_isPlain hc, if_neg (by decide), ih]
  | colon hc hs ih =>
    rw [List.cons_append, List.cons_append, bareId, endsId_cons_of_isPlain hc,
      if_neg (by decide), bareId, endsId_colon hs, if_neg (by decide), ih]

/-- An id in quotes is read up to the closing quote. -/
theorem quotedId?_append {q : Char} {s t : List Char} (h : q ∉ s) (ht : endsId t = true) :
    quotedId? q (s ++ q :: t) = some s := by
  induction s with
  | nil => rw [List.nil_append, quotedId?, ht, beq_self_eq_true, Bool.and_self, if_pos rfl]
  | cons c s ih =>
    rw [List.mem_cons, not_or] at h
    have hc : (c == q) = false := beq_false_of_ne (Ne.symm h.1)
    rw [List.cons_append, quotedId?, hc, Bool.false_and, if_neg (by decide), ih h.2]
    rfl

/-! ## Items -/

/-- The id is a name, and the label ends neither the item nor the list nor the line. -/
structure Item.IsLegible (i : Item) : Prop where
  id : IsName i.id
  label : ∀ label, i.label = some label → ',' ∉ label ∧ ']' ∉ label ∧ '\n' ∉ label

namespace Item

variable {i : Item}

/-- What stands after the id and its quotes. -/
def tail (i : Item) : List Char :=
  (match i.label with
    | some label => [':', ' '] ++ label ++ ['\x7d']
    | none => []) ++ List.replicate i.after ' '

theorem text_eq (i : Item) : i.text = List.replicate i.before ' '
    ++ ((if i.label.isSome then ['\x7b'] else [])
      ++ (i.quotes.mark ++ (i.id ++ (i.quotes.mark ++ i.tail)))) := by
  rw [text, opening, closing, tail]
  cases i.label <;> simp only [List.append_assoc]

theorem isBlank_of_mem_replicate {n : Nat} : ∀ c ∈ List.replicate n ' ', isBlank c = true := by
  intro c hc
  rw [(List.mem_replicate.1 hc).2]
  decide

theorem endsId_tail (i : Item) : endsId i.tail = true := by
  rw [tail]
  cases i.label with
  | none =>
    have htrim : trimStart (List.replicate i.after ' ') = [] := by
      have hblank := trimStart_append_of_blank (s := []) (isBlank_of_mem_replicate (n := i.after))
      rwa [List.append_nil] at hblank
    rw [List.nil_append, endsId, htrim]
  | some label =>
    simp only [List.cons_append, List.nil_append]
    rw [endsId, trimStart_cons_of_not_blank (by decide)]
    rfl

/-- An id starts with its quote or with a character of a name. -/
theorem exists_quoted_cons (h : IsName i.id) (t : List Char) :
    ∃ c rest, i.quotes.mark ++ (i.id ++ t) = c :: rest ∧ isBlank c = false ∧ c ≠ '\x7b' := by
  cases i.quotes with
  | none =>
    obtain ⟨c, rest, hid, hc⟩ := h.exists_cons
    rw [hid]
    exact ⟨c, rest ++ t, rfl, isBlank_of_isPlain hc, ne_of_isPlain hc (by decide)⟩
  | single => exact ⟨'\'', i.id ++ t, rfl, by decide, by decide⟩
  | double => exact ⟨'"', i.id ++ t, rfl, by decide, by decide⟩

/-- Blanks and a brace are dropped in front of the id. -/
theorem afterBrace_text (h : IsName i.id) :
    afterBrace (trimStart i.text) = i.quotes.mark ++ (i.id ++ (i.quotes.mark ++ i.tail)) := by
  obtain ⟨c, rest, hcons, hblank, hbrace⟩ := exists_quoted_cons h (i.quotes.mark ++ i.tail)
  rw [text_eq, trimStart_append_of_blank isBlank_of_mem_replicate, hcons]
  cases i.label with
  | none =>
    show afterBrace (trimStart (c :: rest)) = c :: rest
    rw [trimStart_cons_of_not_blank hblank]
    simp [afterBrace, hbrace]
  | some label =>
    show afterBrace (trimStart ('\x7b' :: c :: rest)) = c :: rest
    rw [trimStart_cons_of_not_blank (by decide), afterBrace, trimStart_cons_of_not_blank hblank]

theorem readId_quoted (h : IsName i.id) (place : Nat) :
    readId place (i.quotes.mark ++ (i.id ++ (i.quotes.mark ++ i.tail)))
      = (place + i.quotes.mark.length, i.id) := by
  cases i.quotes with
  | none =>
    show readId place (i.id ++ i.tail) = (place, i.id)
    obtain ⟨c, rest, hid, hc⟩ := h.exists_cons
    have hbare : bareId (c :: (rest ++ i.tail)) = c :: rest := by
      rw [← List.cons_append, ← hid]
      exact bareId_append h i.endsId_tail
    simp [hid, readId, isQuote_of_isPlain hc, hbare]
  | single =>
    show readId place ('\'' :: (i.id ++ '\'' :: i.tail)) = (place + 1, i.id)
    have hquoted := quotedId?_append (h.not_mem (k := '\'') (by decide) (by decide)) i.endsId_tail
    simp [readId, isQuote, hquoted]
  | double =>
    show readId place ('"' :: (i.id ++ '"' :: i.tail)) = (place + 1, i.id)
    have hquoted := quotedId?_append (h.not_mem (k := '"') (by decide) (by decide)) i.endsId_tail
    simp [readId, isQuote, hquoted]

/-- An item is read as it is written: the place and the text of its id are found. -/
theorem bracketItem_text (h : IsName i.id) :
    bracketItem i.text = (i.before + i.opening.length, i.id) := by
  have hlength : i.text.length - (i.quotes.mark ++ (i.id ++ (i.quotes.mark ++ i.tail))).length
      + i.quotes.mark.length = i.before + i.opening.length := by
    simp only [text_eq, opening, List.length_append, List.length_replicate]
    omega
  rw [bracketItem]
  simp only [afterBrace_text h]
  rw [readId_quoted h, hlength]

theorem not_mem_text {k : Char} (h : i.IsLegible) (hplain : isPlain k = false)
    (hk : k ∉ [' ', ':', '\'', '"', '\x7b', '\x7d'])
    (hlabel : ∀ label, i.label = some label → k ∉ label) : k ∉ i.text := by
  simp only [List.mem_cons, List.not_mem_nil, or_false, not_or] at hk
  obtain ⟨hblank, hcolon, hsingle, hdouble, hopen, hclose⟩ := hk
  have hid : k ∉ i.id := h.id.not_mem hplain hcolon
  have hmark : k ∉ i.quotes.mark := by
    cases i.quotes with
    | none => exact List.not_mem_nil
    | single => simpa [Quotes.mark] using hsingle
    | double => simpa [Quotes.mark] using hdouble
  have hblanks (n : Nat) : k ∉ List.replicate n ' ' := fun hmem =>
    hblank (List.mem_replicate.1 hmem).2
  have htail : k ∉ i.tail := by
    rw [tail]
    cases hl : i.label with
    | none => simpa using hblanks i.after
    | some label => simp [hcolon, hblank, hclose, hlabel label hl, hblanks i.after]
  rw [text_eq]
  simp only [List.mem_append, not_or]
  refine ⟨hblanks i.before, ?_, hmark, hid, hmark, htail⟩
  split <;> simp [hopen]

end Item

/-! ## Lists -/

variable {items : List Item}

/-- Positions are counted through the items. -/
theorem findItem?_texts (h : ∀ i ∈ items, i.IsLegible) (id : List Char) (start : Nat) :
    findItem? id start (items.map Item.text) = column? id start items := by
  induction items generalizing start with
  | nil => rfl
  | cons i items ih =>
    rw [List.forall_mem_cons] at h
    have hitem := Item.bracketItem_text h.1.id
    rw [List.map_cons, findItem?_cons, column?, ih h.2, hitem, ← Nat.add_assoc start]

theorem column?_eq_none {id : List Char} (h : ∀ i ∈ items, i.id ≠ id) (start : Nat) :
    column? id start items = none := by
  induction items generalizing start with
  | nil => rfl
  | cons i items ih =>
    rw [List.forall_mem_cons] at h
    rw [column?, if_neg h.1, ih h.2]

/-- The items in front of the first one with an id are passed over with the commas behind them. -/
theorem column?_append {id : List Char} {before : List Item} {i : Item} (after : List Item)
    (hbefore : ∀ j ∈ before, j.id ≠ id) (hi : i.id = id) (start : Nat) :
    column? id start (before ++ i :: after)
      = some (start + (before.flatMap fun j => j.text ++ [',']).length + i.before
        + i.opening.length) := by
  induction before generalizing start with
  | nil => rw [List.nil_append, column?, if_pos hi]; rfl
  | cons j before ih =>
    rw [List.forall_mem_cons] at hbefore
    rw [List.cons_append, column?, if_neg hbefore.1, ih hbefore.2, List.flatMap_cons,
      List.length_append, List.length_append, List.length_singleton]
    congr 1
    omega

/-! ## The line of a list -/

/-- White space is no part of a word. -/
theorem isWord_of_isBlank {c : Char} (h : isBlank c = true) : isWord c = false := by
  let blanks : List Nat := [9, 10, 11, 12, 13, 28, 29, 30, 31, 32, 0x85, 0xA0, 0x1680, 0x2000,
    0x2001, 0x2002, 0x2003, 0x2004, 0x2005, 0x2006, 0x2007, 0x2008, 0x2009, 0x200A, 0x2028,
    0x2029, 0x202F, 0x205F, 0x3000]
  have hall : ∀ n ∈ blanks, isWord (Char.ofNat n) = false := by decide +kernel
  have hmem : c.toNat ∈ blanks := by
    simp only [isBlank, Bool.or_eq_true, Bool.and_eq_true, decide_eq_true_eq, beq_iff_eq] at h
    simp only [blanks, List.mem_cons, List.not_mem_nil, or_false]
    omega
  have hc := hall c.toNat hmem
  rwa [Char.ofNat_toNat] at hc

theorem bracketList?_from {content : List Char} (h : ']' ∉ content) :
    bracketList? ("from: [".toList ++ content ++ [']']) = some (7, content) := by
  have htake : (content ++ [']']).takeWhile (· ≠ ']') = content := by
    have hne : ∀ c ∈ content, decide (c ≠ ']') = true := fun c hc =>
      decide_eq_true fun heq => h (heq ▸ hc)
    rw [List.takeWhile_append_of_pos hne]
    simp
  have hdrop : dropPiece? "from:".toList ("from: [".toList ++ content ++ [']']) =
      some (' ' :: '[' :: (content ++ [']'])) := rfl
  have htrim : trimStart (' ' :: '[' :: (content ++ [']'])) = '[' :: (content ++ [']']) := rfl
  rw [bracketList?, hdrop]
  simp only [htrim, htake]
  simp

/-- A list in brackets that starts a word is the first one. -/
theorem findBracketList?_of_bracketList? {prev : Option Char} {s content : List Char}
    {offset : Nat} (hprev : prev.any isWord = false)
    (h : bracketList? s = some (offset, content)) (column : Nat) :
    findBracketList? prev column s = some (column + offset, content) := by
  cases s with
  | nil => simp [bracketList?, dropPiece?] at h
  | cons c s => simp only [findBracketList?, hprev, h, Bool.false_eq_true, if_false]

/-- The search for a list goes over white space. -/
theorem findBracketList?_margin {margin s : List Char} (hmargin : ∀ c ∈ margin, isBlank c = true)
    {offset : Nat} {content : List Char} (hs : bracketList? s = some (offset, content))
    {prev : Option Char} (hprev : prev.any isWord = false) (column : Nat) :
    findBracketList? prev column (margin ++ s)
      = some (column + margin.length + offset, content) := by
  induction margin generalizing prev column with
  | nil => exact findBracketList?_of_bracketList? hprev hs column
  | cons c margin ih =>
    rw [List.forall_mem_cons] at hmargin
    have hnone : bracketList? (c :: (margin ++ s)) = none := by
      have hc : 'f' ≠ c := by
        rintro rfl
        exact absurd hmargin.1 (by decide)
      have hdrop : dropPiece? "from:".toList (c :: (margin ++ s)) = none := if_neg hc
      rw [bracketList?, hdrop]
    have hword : (some c).any isWord = false := isWord_of_isBlank hmargin.1
    rw [List.cons_append, findBracketList?, hnone, ite_self]
    simp only
    rw [ih hmargin.2 hword, List.length_cons, Nat.add_right_comm column 1, Nat.add_assoc column]

/-- What a line has in front of the id of an item, behind the items `before`. -/
def front (indent : List Char) (before : List Item) (i : Item) : List Char :=
  indent ++ "from: [".toList ++ (before.flatMap fun j => j.text ++ [','])
    ++ List.replicate i.before ' ' ++ i.opening

theorem join_texts (before after : List Item) (i : Item) :
    ∃ rest, join [','] ((before ++ i :: after).map Item.text)
      = (before.flatMap fun j => j.text ++ [',']) ++ (i.text ++ rest) := by
  induction before with
  | nil =>
    cases after with
    | nil => exact ⟨[], by simp [join]⟩
    | cons j after => exact ⟨',' :: join [','] ((j :: after).map Item.text), by simp [join]⟩
  | cons j before ih =>
    obtain ⟨rest, hrest⟩ := ih
    refine ⟨rest, ?_⟩
    rw [List.cons_append, List.map_cons, join_cons (by simp), hrest, List.flatMap_cons]
    simp only [List.append_assoc]

/-- The id of an item stands in the line behind what is in front of it. -/
theorem exists_line_eq (indent : List Char) (before after : List Item) (i : Item) :
    ∃ rest, line indent (before ++ i :: after) = front indent before i ++ i.id ++ rest := by
  obtain ⟨rest, hrest⟩ := join_texts before after i
  refine ⟨i.closing ++ List.replicate i.after ' ' ++ rest ++ [']'], ?_⟩
  rw [line, hrest, front, Item.text]
  simp only [List.append_assoc]

theorem bracketReference?_eq_column? {indent : List Char}
    (hindent : ∀ c ∈ indent, isBlank c = true) (hne : items ≠ [])
    (h : ∀ i ∈ items, i.IsLegible) (id : List Char) :
    bracketReference? none 0 id (line indent items) = column? id (indent.length + 7) items := by
  have hcomma : ∀ text ∈ items.map Item.text, ',' ∉ text := by
    intro text htext
    obtain ⟨i, hi, rfl⟩ := List.mem_map.1 htext
    exact Item.not_mem_text (h i hi) (by decide) (by decide) fun label hlabel =>
      ((h i hi).label label hlabel).1
  have hclose : ']' ∉ join [','] (items.map Item.text) := by
    intro hmem
    obtain hmem | ⟨text, htext, hmem⟩ := mem_of_mem_join hmem
    · exact absurd hmem (by decide)
    · obtain ⟨i, hi, rfl⟩ := List.mem_map.1 htext
      exact Item.not_mem_text (h i hi) (by decide) (by decide) (fun label hlabel =>
        ((h i hi).label label hlabel).2.1) hmem
  have hlist : findBracketList? none 0 (line indent items)
      = some (0 + indent.length + 7, join [','] (items.map Item.text)) := by
    rw [line, List.append_assoc indent, List.append_assoc indent]
    exact findBracketList?_margin hindent (bracketList?_from hclose) rfl 0
  rw [bracketReference?, hlist, Nat.zero_add]
  simp only
  rw [splitOn_join (by simpa using hne) hcomma, findItem?_texts h]

/-- **Lists in brackets are read item by item.** In a line that has a list in brackets after
`from:`, with names as ids, each written in any of the six ways and with any number of blanks
around it, a reference is found at the id of the first item that has it, and nowhere if no item
has it. -/
theorem bracketReference?_line {indent : List Char} (hindent : ∀ c ∈ indent, isBlank c = true)
    (hne : items ≠ []) (h : ∀ i ∈ items, i.IsLegible) (id : List Char) :
    (∀ before i after, items = before ++ i :: after → i.id = id → (∀ j ∈ before, j.id ≠ id) →
        bracketReference? none 0 id (line indent items) = some (front indent before i).length
        ∧ ∃ rest, line indent items = front indent before i ++ id ++ rest)
      ∧ ((∀ i ∈ items, i.id ≠ id) → bracketReference? none 0 id (line indent items) = none) := by
  have hcolumn := bracketReference?_eq_column? hindent hne h id
  refine ⟨?_, ?_⟩
  · rintro before i after rfl hi hbefore
    obtain ⟨rest, hrest⟩ := exists_line_eq indent before after i
    refine ⟨?_, rest, hi ▸ hrest⟩
    rw [hcolumn, column?_append after hbefore hi, front]
    simp only [List.length_append, List.length_replicate]
    rfl
  · intro hnone
    rw [hcolumn, column?_eq_none hnone]

/-- A list with an item of each form. All ids start with `net`, and one label looks like a list. -/
def mixed : List Item :=
  [⟨1, .none, "net-1".toList, none, 0⟩,
    ⟨0, .single, "net:work".toList, none, 2⟩,
    ⟨3, .double, "net.1".toList, none, 1⟩,
    ⟨1, .none, "net:1".toList, some "from: [net".toList, 0⟩,
    ⟨0, .single, "net_1".toList, some "'net': net".toList, 0⟩,
    ⟨1, .double, "net".toList, some "\"via\"".toList, 0⟩]

theorem isLegible_mixed : ∀ i ∈ mixed, i.IsLegible := by
  have hplain (s : List Char) (h : IsPlainId s) : IsName s := isName_of_isPlainId h
  have hcolon (s t : List Char) (hs : IsPlainId s) (ht : IsPlainId t) : IsName (s ++ ':' :: t) :=
    (hplain s hs).append_colon (hplain t ht)
  have hlabel : ∀ i ∈ mixed, ∀ label ∈ i.label, ',' ∉ label ∧ ']' ∉ label ∧ '\n' ∉ label := by
    decide
  have hid : ∀ i ∈ mixed, IsName i.id := by
    simp only [mixed, List.forall_mem_cons]
    exact ⟨hplain _ (by decide), hcolon ['n', 'e', 't'] _ (by decide) (by decide),
      hplain _ (by decide), hcolon ['n', 'e', 't'] _ (by decide) (by decide),
      hplain _ (by decide), hplain _ (by decide), by simp⟩
  exact fun i hi => ⟨hid i hi, hlabel i hi⟩

theorem bracketReference?_line_mixed :
    (∀ i ∈ mixed, i.IsLegible)
      ∧ String.ofList (line [' ', '\t'] mixed) = " \tfrom: [ net-1,'net:work'  ,   \"net.1\" "
        ++ ", \x7bnet:1: from: [net\x7d,\x7b'net_1': 'net': net\x7d, \x7b\"net\": \"via\"\x7d]"
      ∧ bracketReference? none 0 "net".toList (line [' ', '\t'] mixed) = some 87
      ∧ bracketReference? none 0 "net:1".toList (line [' ', '\t'] mixed) = some 43
      ∧ bracketReference? none 0 "work".toList (line [' ', '\t'] mixed) = none := by
  have hreads := @bracketReference?_line mixed [' ', '\t'] (List.all_eq_true.1 rfl) (by decide)
    isLegible_mixed
  refine ⟨isLegible_mixed, by decide +kernel, ?_, ?_, ?_⟩
  · exact ((hreads _).1 (mixed.take 5) _ [] rfl rfl (by decide)).1
  · exact ((hreads _).1 (mixed.take 3) _ (mixed.drop 4) rfl rfl (by decide)).1
  · exact (hreads _).2 (by decide)

end ThreatTree.Location.Bracketed
