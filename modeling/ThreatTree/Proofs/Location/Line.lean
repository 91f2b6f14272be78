import ThreatTree.Location.Line
import ThreatTree.Proofs.Text.Pieces

/-!
# What the readers of a line find

A key that is found is the whole key of a list item (`itemKey?_eq_some_iff`). A reference that
is found stands in the line as it was asked for: behind the hyphen of a list item as one of the
names of the node (`exists_name_of_itemReference?`), or between brackets as the id
(`exists_of_bracketReference?`). The columns that the readers count are the places where it
stands.
-/

namespace ThreatTree.Location

open Text

/-! ## Keys of list items -/

theorem cutKey_eq_some_iff {s id after : List Char} :
    cutKey s = some (id, after) ↔ s = id ++ ':' :: after ∧ atBlankOrEnd after = true
      ∧ ∀ before rest, id = before ++ ':' :: rest →
          atBlankOrEnd (rest ++ ':' :: after) = false := by
  induction s generalizing id with
  | nil => simp [cutKey]
  | cons c s ih =>
    rw [cutKey]
    by_cases hc : (c == ':' && atBlankOrEnd s) = true
    · rw [if_pos hc]
      obtain ⟨rfl, hs⟩ : c = ':' ∧ atBlankOrEnd s = true := by simpa using hc
      constructor
      · intro h
        obtain ⟨rfl, rfl⟩ : id = [] ∧ after = s := by simpa [eq_comm] using h
        exact ⟨rfl, hs, by simp⟩
      · rintro ⟨h, -, hinner⟩
        cases id with
        | nil =>
          obtain rfl : s = after := by simpa using h
          rfl
        | cons d id =>
          -- A first colon inside the key would end it.
          obtain ⟨rfl, rfl⟩ : ':' = d ∧ s = id ++ ':' :: after := by simpa using h
          exact absurd hs (by simp [hinner [] id rfl])
    · rw [if_neg hc]
      have hcs : c = ':' → atBlankOrEnd s = false := by
        rintro rfl
        simpa using hc
      constructor
      · intro h
        obtain ⟨⟨id', after'⟩, hcut, heq⟩ := Option.map_eq_some_iff.1 h
        obtain ⟨rfl, rfl⟩ : c :: id' = id ∧ after' = after := by simpa using heq
        obtain ⟨rfl, hafter, hinner⟩ := ih.1 hcut
        refine ⟨rfl, hafter, fun before rest hid => ?_⟩
        cases before with
        | nil =>
          obtain ⟨rfl, rfl⟩ : c = ':' ∧ id' = rest := by simpa using hid
          exact hcs rfl
        | cons d before =>
          obtain ⟨rfl, rfl⟩ : c = d ∧ id' = before ++ ':' :: rest := by simpa using hid
          exact hinner before rest rfl
      · rintro ⟨h, hafter, hinner⟩
        cases id with
        | nil =>
          obtain ⟨rfl, rfl⟩ : c = ':' ∧ s = after := by simpa using h
          exact absurd hafter (by simp [hcs rfl])
        | cons d id =>
          obtain ⟨rfl, rfl⟩ : c = d ∧ s = id ++ ':' :: after := by simpa using h
          have hcut : cutKey (id ++ ':' :: after) = some (id, after) :=
            ih.2 ⟨rfl, hafter, fun before rest hid => hinner (c :: before) rest (by rw [hid]; rfl)⟩
          rw [hcut]
          rfl

/-- The line is a list item with the key: white space of the given length, a hyphen and a
blank, the id, a colon that ends a word, and the rest. -/
def IsItemKey (line : List Char) (k : ItemKey) : Prop :=
  ∃ margin, line = margin ++ ['-', ' '] ++ k.id ++ ':' :: k.after
    ∧ margin.length = k.indent ∧ (∀ c ∈ margin, isBlank c = true)
    ∧ atBlankOrEnd k.after = true
    ∧ (∃ c, k.id.head? = some c ∧ isBlank c = false ∧ c ≠ ':' ∧ c ≠ '#')
    ∧ ∀ before rest, k.id = before ++ ':' :: rest →
        atBlankOrEnd (rest ++ ':' :: k.after) = false

theorem itemKey?_eq_some_iff {line : List Char} {k : ItemKey} :
    itemKey? line = some k ↔ IsItemKey line k := by
  constructor
  · intro h
    unfold itemKey? at h
    split at h
    · next c rest hline =>
      split at h
      · exact absurd h (by simp)
      · next hc =>
        obtain ⟨⟨id, after⟩, hcut, rfl⟩ := Option.map_eq_some_iff.1 h
        obtain ⟨rfl, hafter, hinner⟩ := cutKey_eq_some_iff.1 hcut
        obtain ⟨⟨hblank, hcolon⟩, hhash⟩ : (isBlank c = false ∧ c ≠ ':') ∧ c ≠ '#' := by
          simpa using hc
        have hparts : line = margin line ++ ['-', ' '] ++ (c :: id) ++ ':' :: after :=
          calc line = margin line ++ trimStart line := (margin_append_trimStart line).symm
            _ = margin line ++ ['-', ' '] ++ (c :: id) ++ ':' :: after := by simp [hline]
        refine ⟨margin line, hparts, length_margin line, fun _ => isBlank_of_mem_margin, hafter,
          ⟨c, rfl, hblank, hcolon, hhash⟩, fun before rest hid => ?_⟩
        cases before with
        | nil => exact absurd (List.cons.inj hid).1 hcolon
        | cons d before => exact hinner before rest (List.cons.inj hid).2
    · exact absurd h (by simp)
  · obtain ⟨indent, id, after⟩ := k
    rintro ⟨margin, rfl, rfl, hmargin, hafter, ⟨c, hhead, hblank, hcolon, hhash⟩, hinner⟩
    obtain ⟨id, rfl⟩ : ∃ id', id = c :: id' := by
      cases id with
      | nil => simp at hhead
      | cons d id => exact ⟨id, by simpa using hhead⟩
    have htrim : trimStart (margin ++ ['-', ' '] ++ (c :: id) ++ ':' :: after)
        = '-' :: ' ' :: c :: (id ++ ':' :: after) := by
      rw [List.append_assoc, List.append_assoc, trimStart_append_of_blank hmargin]
      exact trimStart_cons_of_not_blank (by decide) _
    have hcut : cutKey (id ++ ':' :: after) = some (id, after) :=
      cutKey_eq_some_iff.2 ⟨rfl, hafter, fun before rest hid =>
        hinner (c :: before) rest (by rw [hid]; rfl)⟩
    have hlength : (margin ++ ['-', ' '] ++ (c :: id) ++ ':' :: after).length
        - ('-' :: ' ' :: c :: (id ++ ':' :: after)).length = margin.length := by
      simp only [List.length_append, List.length_cons, List.length_nil]
      omega
    simp only [itemKey?, htrim, hblank, hcut, Option.map_some, hlength]
    simp [hcolon, hhash]

/-! ## References in list items -/

/-- The ways to write a reference to a node: its id alone, or a list item with the id, perhaps
in quotes. -/
def referenceTexts (id : List Char) : List (List Char) :=
  [id, ['-', ' '] ++ id, ['-', ' ', '"'] ++ id ++ ['"'], ['-', ' ', '\''] ++ id ++ ['\'']]

/-- The names of a node in a list item: its id, perhaps in quotes. -/
def names (id : List Char) : List (List Char) :=
  [id, ['"'] ++ id ++ ['"'], ['\''] ++ id ++ ['\'']]

theorem mem_referenceTexts_of_mem_names {id name : List Char} (h : name ∈ names id) :
    ['-', ' '] ++ name ∈ referenceTexts id := by
  simp only [names, List.mem_cons, List.not_mem_nil, or_false] at h
  rcases h with rfl | rfl | rfl <;> simp [referenceTexts]

theorem exists_of_startsQuoted {id s : List Char} (h : startsQuoted id s = true) :
    ∃ name ∈ names id, ∃ after, s = name ++ after ∧ endsReference after = true
      ∧ name.length = id.length + 2 := by
  cases s with
  | nil => simp [startsQuoted] at h
  | cons q rest =>
    rw [startsQuoted, Bool.and_eq_true] at h
    obtain ⟨hq, h⟩ := h
    split at h
    · next q' after hdrop =>
      obtain ⟨rfl, hends⟩ : q' = q ∧ endsReference after = true := by simpa using h
      rw [dropPiece?_eq_some_iff.1 hdrop]
      have hname : [q'] ++ id ++ [q'] ∈ names id := by
        have hquote : q' = '"' ∨ q' = '\'' := by simpa [isQuote] using hq
        rcases hquote with rfl | rfl <;> simp [names]
      exact ⟨[q'] ++ id ++ [q'], hname, after, by simp, hends, by simp⟩
    · simp at h

theorem exists_of_startsReference {id s : List Char} (h : startsReference id s = true) :
    ∃ after, s = id ++ after ∧ endsReference after = true := by
  cases hdrop : dropPiece? id s with
  | none => simp [startsReference, hdrop] at h
  | some after =>
    exact ⟨after, dropPiece?_eq_some_iff.1 hdrop, by simpa [startsReference, hdrop] using h⟩

/-- A reference that is found in a list item is a name of the node behind the hyphen, and its
length is that of the name, hyphen and blank included. -/
theorem exists_name_of_itemReference? {id line : List Char} {r : ItemReference}
    (h : itemReference? id line = some r) :
    ∃ name ∈ names id, ∃ after, line = margin line ++ '-' :: ' ' :: (name ++ after)
      ∧ endsReference after = true ∧ (margin line).length = r.indent
      ∧ name.length + 2 = id.length + (if r.quoted then 4 else 2) := by
  unfold itemReference? at h
  dsimp only at h
  split at h
  · next rest hline =>
    have hparts : line = margin line ++ ('-' :: ' ' :: rest) := by
      rw [← hline, margin_append_trimStart]
    split at h
    · next hquoted =>
      obtain rfl := Option.some.inj h
      obtain ⟨name, hname, after, rfl, hends, hlength⟩ := exists_of_startsQuoted hquoted
      refine ⟨name, hname, after, hparts, hends, length_margin line, ?_⟩
      rw [hlength]
      rfl
    · split at h
      · next hplain =>
        obtain rfl := Option.some.inj h
        obtain ⟨after, rfl, hends⟩ := exists_of_startsReference hplain
        exact ⟨id, by simp [names], after, hparts, hends, length_margin line, rfl⟩
      · exact absurd h (by simp)
  · exact absurd h (by simp)

/-! ## References in brackets -/

/-- What is left of a text at its end starts as far from its start as it is shorter. -/
theorem exists_of_isSuffix {s t : List Char} (h : t <:+ s) :
    ∃ before, s = before ++ t ∧ before.length = s.length - t.length := by
  obtain ⟨before, rfl⟩ := h
  exact ⟨before, rfl, by simp⟩

theorem trimStart_isSuffix (s : List Char) : trimStart s <:+ s := List.dropWhile_suffix _

theorem bareId_isPrefix (s : List Char) : bareId s <+: s := by
  induction s with
  | nil => exact List.prefix_rfl
  | cons c s ih =>
    rw [bareId]
    split
    · exact List.nil_prefix
    · exact List.cons_prefix_cons.2 ⟨rfl, ih⟩

theorem quotedId?_isPrefix {q : Char} {s id : List Char} (h : quotedId? q s = some id) :
    id <+: s := by
  induction s generalizing id with
  | nil => simp [quotedId?] at h
  | cons c s ih =>
    rw [quotedId?] at h
    split at h
    · obtain rfl := Option.some.inj h
      exact List.nil_prefix
    · obtain ⟨id, hid, rfl⟩ := Option.map_eq_some_iff.1 h
      exact List.cons_prefix_cons.2 ⟨rfl, ih hid⟩

theorem afterBrace_isSuffix (s : List Char) : afterBrace s <:+ s := by
  unfold afterBrace
  split
  · exact (trimStart_isSuffix _).trans (List.suffix_cons _ _)
  · exact List.suffix_rfl

/-- An id is read where it stands. -/
theorem exists_of_readId (s : List Char) (place : Nat) :
    ∃ before after, s = before ++ (readId place s).2 ++ after
      ∧ (readId place s).1 = place + before.length := by
  cases s with
  | nil => exact ⟨[], [], rfl, rfl⟩
  | cons q rest =>
    rw [readId]
    split
    · next id hid =>
      have hquoted : quotedId? q rest = some id := by
        split at hid
        · exact hid
        · exact absurd hid (by simp)
      obtain ⟨after, rfl⟩ := quotedId?_isPrefix hquoted
      exact ⟨[q], after, rfl, rfl⟩
    · obtain ⟨after, hafter⟩ := bareId_isPrefix (q :: rest)
      exact ⟨[], after, hafter.symm, rfl⟩

/-- The id of an item stands at its place. -/
theorem exists_of_bracketItem (item : List Char) :
    ∃ before after, item = before ++ (bracketItem item).2 ++ after
      ∧ before.length = (bracketItem item).1 := by
  obtain ⟨opening, hopening, hlength⟩ := exists_of_isSuffix
    ((afterBrace_isSuffix (trimStart item)).trans (trimStart_isSuffix item))
  obtain ⟨before, after, hid, hplace⟩ := exists_of_readId (afterBrace (trimStart item))
    (item.length - (afterBrace (trimStart item)).length)
  refine ⟨opening ++ before, after, ?_, ?_⟩
  · rw [List.append_assoc, List.append_assoc, ← List.append_assoc before, bracketItem, ← hid,
      ← hopening]
  · rw [bracketItem, hplace, List.length_append, hlength]

theorem findItem?_cons (id : List Char) (column : Nat) (item : List Char)
    (items : List (List Char)) :
    findItem? id column (item :: items) =
      if (bracketItem item).2 = id then some (column + (bracketItem item).1)
      else findItem? id (column + item.length + 1) items := rfl

theorem exists_of_findItem? {id : List Char} {column n : Nat} {items : List (List Char)}
    (h : findItem? id column items = some n) :
    ∃ before after, join [','] items = before ++ id ++ after ∧ n = column + before.length := by
  induction items generalizing column with
  | nil => simp [findItem?] at h
  | cons item items ih =>
    rw [findItem?_cons] at h
    split at h
    · next hid =>
      obtain rfl := Option.some.inj h
      obtain ⟨before, after, hitem, hlength⟩ := exists_of_bracketItem item
      rw [hid] at hitem
      obtain ⟨more, hmore⟩ : item <+: join [','] (item :: items) := by
        cases items with
        | nil => exact List.prefix_rfl
        | cons i is => exact ⟨_, (List.append_assoc ..).symm⟩
      refine ⟨before, after ++ more, ?_, by rw [hlength]⟩
      rw [← hmore, hitem]
      simp
    · obtain ⟨before, after, hjoin, rfl⟩ := ih h
      have hne : items ≠ [] := by
        rintro rfl
        simp [findItem?] at h
      refine ⟨item ++ [','] ++ before, after, ?_, by simp; omega⟩
      rw [join_cons hne, hjoin]
      simp

/-- A text that has a character has it behind what is taken up to there. -/
theorem exists_of_length_takeWhile_lt {c : Char} {s : List Char}
    (h : (s.takeWhile (· ≠ c)).length < s.length) :
    ∃ rest, s = s.takeWhile (· ≠ c) ++ c :: rest := by
  have hparts := List.takeWhile_append_dropWhile (p := (· ≠ c)) (l := s)
  cases hdrop : s.dropWhile (· ≠ c) with
  | nil =>
    rw [hdrop, List.append_nil] at hparts
    rw [hparts] at h
    exact absurd h (Nat.lt_irrefl _)
  | cons c' rest =>
    have hhead := List.head?_dropWhile_not (· ≠ c) s
    rw [hdrop] at hhead
    obtain rfl : c' = c := by simpa using hhead
    exact ⟨rest, by rw [← hdrop, hparts]⟩

/-- A list in brackets has its brackets around its content. -/
theorem exists_of_bracketList? {s content : List Char} {offset : Nat}
    (h : bracketList? s = some (offset, content)) :
    ∃ before after, s = before ++ '[' :: (content ++ ']' :: after)
      ∧ before.length + 1 = offset := by
  unfold bracketList? at h
  split at h
  · exact absurd h (by simp)
  · next rest hrest =>
    split at h
    · next inside hinside =>
      dsimp only at h
      split at h
      · next hclosed =>
        obtain ⟨rfl, rfl⟩ := Prod.mk.inj (Option.some.inj h)
        have hsuffix : '[' :: inside <:+ s := by
          have hrest' : rest <:+ s := ⟨_, (dropPiece?_eq_some_iff.1 hrest).symm⟩
          exact hinside ▸ (trimStart_isSuffix rest).trans hrest'
        obtain ⟨before, rfl⟩ := hsuffix
        obtain ⟨after, hafter⟩ := exists_of_length_takeWhile_lt hclosed
        refine ⟨before, after, by rw [← hafter], ?_⟩
        simp only [List.length_append, List.length_cons]
        omega
      · exact absurd h (by simp)
    · exact absurd h (by simp)

theorem exists_of_findBracketList? {prev : Option Char} {column start : Nat}
    {s content : List Char} (h : findBracketList? prev column s = some (start, content)) :
    ∃ before after, s = before ++ '[' :: (content ++ ']' :: after)
      ∧ start = column + (before.length + 1) := by
  induction s generalizing prev column with
  | nil => simp [findBracketList?] at h
  | cons c s ih =>
    rw [findBracketList?] at h
    split at h
    · next offset content' hlist =>
      obtain ⟨rfl, rfl⟩ := Prod.mk.inj (Option.some.inj h)
      have hbracket : bracketList? (c :: s) = some (offset, content') := by
        split at hlist
        · exact absurd hlist (by simp)
        · exact hlist
      obtain ⟨before, after, hs, rfl⟩ := exists_of_bracketList? hbracket
      exact ⟨before, after, hs, rfl⟩
    · obtain ⟨before, after, rfl, rfl⟩ := ih h
      exact ⟨c :: before, after, rfl, by rw [List.length_cons]; omega⟩

/-- A reference that is found in brackets is the id, at the column that was counted, and the
brackets stand around it. -/
theorem exists_of_bracketReference? {prev : Option Char} {column n : Nat} {id s : List Char}
    (h : bracketReference? prev column id s = some n) :
    ∃ before after, s = before ++ id ++ after ∧ n = column + before.length
      ∧ '[' ∈ before ∧ ']' ∈ after := by
  unfold bracketReference? at h
  split at h
  · exact absurd h (by simp)
  · next start content hlist =>
    obtain ⟨before, after, rfl, rfl⟩ := exists_of_findBracketList? hlist
    obtain ⟨before', after', hcontent, rfl⟩ := exists_of_findItem? h
    rw [join_splitOn] at hcontent
    refine ⟨before ++ '[' :: before', after' ++ ']' :: after, by simp [hcontent], ?_, by simp,
      by simp⟩
    rw [List.length_append, List.length_cons]
    omega

end ThreatTree.Location
