import ThreatTree.Proofs.Document.Outline
import ThreatTree.Proofs.Location.Block
import ThreatTree.Proofs.Location.Bracketed

/-!
# What the readers find in the lines of an outline

The key of a section and the first line of an entry are read as they are written. All other
lines after the title are inert (`IsInert`): the scan for headers passes over them. In the list
of predecessors of an entry, a reference is found where the predecessor is listed first
(`firstReference?_listLines`), also if its id starts or ends that of another predecessor.
-/

namespace ThreatTree.Location

open Text Outline

/-! ## Lines with a key -/

theorem topLevelKey?_keyLine (c : Category) :
    topLevelKey? (keyLine c) = some c.sectionName.toList := by
  cases c <;> decide

theorem sectionOf?_sectionName (c : Category) : sectionOf? c.sectionName.toList = some c := by
  cases c <;> decide

theorem topLevelKey?_firstLine (n : Node) : topLevelKey? (firstLine n) = none := rfl

theorem itemKey?_firstLine {n : Node} (h : IsPlainId n.id.toList) :
    itemKey? (firstLine n) = some ⟨0, n.id.toList, ' ' :: n.label.toList⟩ := by
  refine itemKey?_eq_some_iff.2 ⟨[], by simp [firstLine], rfl, by simp, rfl, ?_, ?_⟩
  · obtain ⟨c, hc⟩ := Option.isSome_iff_exists.1 (List.isSome_head?.2 h.ne_nil)
    have hplain : isPlain c = true := h.all_plain c (List.mem_of_mem_head? hc)
    exact ⟨c, hc, isBlank_of_isPlain hplain, ne_of_isPlain hplain (by decide),
      ne_of_isPlain hplain (by decide)⟩
  · rintro before rest (hid : n.id.toList = _)
    exact absurd (by rw [hid]; simp : ':' ∈ n.id.toList) (h.not_mem (by decide))

/-! ## Inert lines -/

theorem itemKey?_of_not_mem {line : List Char} (h : ':' ∉ line) : itemKey? line = none := by
  refine Option.eq_none_iff_forall_ne_some.2 fun k hk => h ?_
  obtain ⟨margin, rfl, -⟩ := itemKey?_eq_some_iff.1 hk
  simp

theorem isInert_lines {ids : List String} (h : ∀ p ∈ ids, IsPlainId p.toList)
    (l : Listing) : ∀ line ∈ l.lines ids, IsInert line := by
  intro line hline
  obtain ⟨key, style⟩ := l
  cases style with
  | block =>
    rw [lines_block, List.mem_cons, List.mem_map] at hline
    rcases hline with rfl | ⟨p, hp, rfl⟩
    · cases key <;> exact ⟨rfl, rfl⟩
    · exact ⟨rfl, itemKey?_of_not_mem (by simpa using (h p hp).not_mem (by decide))⟩
  | brackets =>
    rw [lines_brackets, List.mem_singleton] at hline
    subst hline
    cases key <;> exact ⟨rfl, rfl⟩

theorem isInert_bodyLines {listings : Node → List Listing} {n : Node}
    (h : n.IsPlainEntry listings) : ∀ line ∈ bodyLines listings n, IsInert line := by
  intro line hline
  obtain ⟨l, hl, hline⟩ := List.mem_flatMap.1 hline
  exact isInert_lines (h.listed l hl) l line hline

/-! ## References in a block -/

/-- A list in brackets needs a colon. -/
theorem findBracketList?_of_not_mem {prev : Option Char} {column : Nat} {s : List Char}
    (h : ':' ∉ s) : findBracketList? prev column s = none := by
  induction s generalizing prev column with
  | nil => rfl
  | cons c s ih =>
    have hlist : bracketList? (c :: s) = none := by
      have hdrop : dropPiece? "from:".toList (c :: s) = none := by
        refine Option.eq_none_iff_forall_ne_some.2 fun rest hrest => h ?_
        rw [dropPiece?_eq_some_iff.1 hrest]
        simp
      rw [bracketList?, hdrop]
    rw [findBracketList?, hlist, ite_self]
    exact ih fun hmem => h (List.mem_cons_of_mem c hmem)

theorem startsQuoted_of_plain {p q : List Char} (h : ∀ c ∈ q, isPlain c = true) :
    startsQuoted p q = false := by
  cases q with
  | nil => rfl
  | cons c q =>
    rw [startsQuoted, Bracketed.isQuote_of_isPlain (h c List.mem_cons_self), Bool.false_and]

/-- Among plain ids, a reference is to the whole id. -/
theorem startsReference_iff {p q : List Char} (h : ∀ c ∈ q, isPlain c = true) :
    startsReference p q = true ↔ p = q := by
  constructor
  · intro hstarts
    rw [startsReference, Option.any_eq_true_iff_get] at hstarts
    obtain ⟨hsome, hends⟩ := hstarts
    obtain ⟨rest, hrest⟩ := Option.isSome_iff_exists.1 hsome
    simp only [hrest, Option.get_some] at hends
    obtain rfl := dropPiece?_eq_some_iff.1 hrest
    cases rest with
    | nil => simp
    | cons c rest =>
      have hc : isPlain c = true := h c (by simp)
      rw [endsReference, trimStart_cons_of_not_blank (isBlank_of_isPlain hc)] at hends
      rcases Bool.or_eq_true_iff.1 hends with hends | hends
      · exact absurd (eq_of_beq hends) (ne_of_isPlain hc (by decide))
      · exact absurd (eq_of_beq hends) (ne_of_isPlain hc (by decide))
  · rintro rfl
    have hdrop : dropPiece? p p = some [] := dropPiece?_eq_some_iff.2 (List.append_nil p).symm
    rw [startsReference, hdrop]
    rfl

theorem lineReference?_item {q : List Char} (h : IsPlainId q) (p : List Char) (i : Nat) :
    lineReference? p i (' ' :: ' ' :: '-' :: ' ' :: q) =
      if p = q then some ⟨i, 2, p.length + 2⟩ else none := by
  have hitem : itemReference? p (' ' :: ' ' :: '-' :: ' ' :: q) =
      if startsReference p q then some ⟨2, false⟩ else none := by
    have htrim : trimStart (' ' :: ' ' :: '-' :: ' ' :: q) = '-' :: ' ' :: q := rfl
    unfold itemReference?
    simp only [htrim, startsQuoted_of_plain h.all_plain]
    simp
  have hbrackets : bracketReference? none 0 p (' ' :: ' ' :: '-' :: ' ' :: q) = none := by
    rw [bracketReference?,
      findBracketList?_of_not_mem (by simpa using h.not_mem (by decide))]
  rw [lineReference?, hitem]
  by_cases hp : p = q
  · rw [if_pos ((startsReference_iff h.all_plain).2 hp), if_pos hp]
    rfl
  · rw [if_neg (mt (startsReference_iff h.all_plain).1 hp), if_neg hp, hbrackets]
    rfl

/-- Among list items, a reference is found in the first one with the id. -/
theorem firstReference?_items {ids : List String} (h : ∀ q ∈ ids, IsPlainId q.toList) (p : String)
    (i : Nat) :
    firstReference? p.toList i (ids.map fun q => ' ' :: ' ' :: '-' :: ' ' :: q.toList) =
      if p ∈ ids then some ⟨i + (ids.takeWhile (· ≠ p)).length, 2, p.length + 2⟩ else none := by
  induction ids generalizing i with
  | nil => rfl
  | cons q ids ih =>
    rw [List.map_cons, firstReference?, lineReference?_item (h q List.mem_cons_self)]
    by_cases hpq : p = q
    · subst hpq
      simp [String.length_toList]
    · have hne : p.toList ≠ q.toList := mt String.toList_inj.1 hpq
      rw [if_neg hne, Option.none_or, ih fun r hr => h r (List.mem_cons_of_mem q hr),
        List.takeWhile_cons_of_pos (by simpa using Ne.symm hpq), List.length_cons,
        Nat.add_right_comm i 1, Nat.add_assoc i]
      simp only [List.mem_cons, hpq, false_or]

/-- In a list over several lines, a reference is found in the first item with the id. -/
theorem firstReference?_block {ids : List String} (h : ∀ q ∈ ids, IsPlainId q.toList)
    (key : Reserved) (p : String) (i : Nat) :
    firstReference? p.toList i (Listing.lines ids ⟨key, .block⟩) =
      if p ∈ ids then some ⟨i + 1 + (ids.takeWhile (· ≠ p)).length, 2, p.length + 2⟩
      else none := by
  have hkey : lineReference? p.toList i (listStart key) = none := by cases key <;> rfl
  rw [lines_block, firstReference?, hkey, Option.none_or, firstReference?_items h]

/-! ## References in brackets -/

/-- What is written of the items before the first one with an id. -/
def itemsBefore (p : String) (ids : List String) : List Char :=
  (ids.takeWhile (· ≠ p)).flatMap fun q => q.toList ++ [',', ' ']

theorem itemsBefore_self (p : String) (ids : List String) : itemsBefore p (p :: ids) = [] := by
  simp [itemsBefore]

theorem length_itemsBefore_cons {p q : String} (h : p ≠ q) (ids : List String) :
    (itemsBefore p (q :: ids)).length = q.length + 2 + (itemsBefore p ids).length := by
  rw [itemsBefore, List.takeWhile_cons_of_pos (by simpa using h.symm), List.flatMap_cons,
    List.length_append, List.length_append, String.length_toList]
  rfl

/-- An item that is a plain id. -/
def plainItem (before : Nat) (q : String) : Bracketed.Item := ⟨before, .none, q.toList, none, 0⟩

theorem isLegible_plainItem {q : String} (h : IsPlainId q.toList) (before : Nat) :
    (plainItem before q).IsLegible where
  id := Bracketed.isName_of_isPlainId h
  label := by simp [plainItem]

theorem text_plainItem (before : Nat) (q : String) :
    (plainItem before q).text = List.replicate before ' ' ++ q.toList := by
  simp [plainItem, Bracketed.Item.text, Bracketed.Item.opening, Bracketed.Item.closing,
    Bracketed.Quotes.mark]

/-- The items of a written list: all but the first have a blank before them. -/
theorem join_plainItems (before : Nat) (q : String) (ids : List String) :
    join [','] ((plainItem before q :: ids.map (plainItem 1)).map Bracketed.Item.text)
      = List.replicate before ' ' ++ join [',', ' '] ((q :: ids).map String.toList) := by
  induction ids generalizing before q with
  | nil => exact text_plainItem before q
  | cons r ids ih =>
    have hjoin : join [',', ' '] ((q :: r :: ids).map String.toList)
        = q.toList ++ [',', ' '] ++ join [',', ' '] ((r :: ids).map String.toList) :=
      join_cons (by simp)
    rw [List.map_cons, List.map_cons, join_cons (by simp), ih 1 r, hjoin, text_plainItem]
    simp only [List.append_assoc]
    rfl

/-- Where an id starts in a written list. -/
theorem column?_plainItems {p q : String} {ids : List String} (hp : p ∈ q :: ids)
    (before start : Nat) :
    Bracketed.column? p.toList start (plainItem before q :: ids.map (plainItem 1))
      = some (start + before + (itemsBefore p (q :: ids)).length) := by
  have hself (before start : Nat) (items : List Bracketed.Item) (ids : List String) :
      Bracketed.column? p.toList start (plainItem before p :: items)
        = some (start + before + (itemsBefore p (p :: ids)).length) := by
    have hid : (plainItem before p).id = p.toList := rfl
    rw [Bracketed.column?, if_pos hid, itemsBefore_self]
    rfl
  induction ids generalizing before q start with
  | nil =>
    obtain rfl := List.mem_singleton.1 hp
    exact hself before start _ _
  | cons r ids ih =>
    by_cases hpq : p = q
    · subst hpq
      exact hself before start _ _
    · have hmem : p ∈ r :: ids := (List.mem_cons.1 hp).resolve_left hpq
      have hne : (plainItem before q).id ≠ p.toList := mt String.toList_inj.1 (Ne.symm hpq)
      rw [Bracketed.column?, if_neg hne, List.map_cons, ih hmem, length_itemsBefore_cons hpq,
        text_plainItem, List.length_append, List.length_replicate, String.length_toList]
      congr 1
      omega

theorem lineReference?_brackets {ids : List String} (h : ∀ q ∈ ids, IsPlainId q.toList)
    {p : String} (hp : p ∈ ids) (i : Nat) :
    lineReference? p.toList i
        ("  from: [".toList ++ join [',', ' '] (ids.map String.toList) ++ [']']) =
      some ⟨i, 9 + (itemsBefore p ids).length, p.length⟩ := by
  have hitem : itemReference? p.toList
      ("  from: [".toList ++ join [',', ' '] (ids.map String.toList) ++ [']']) = none := rfl
  have hbrackets : bracketReference? none 0 p.toList
      ("  from: [".toList ++ join [',', ' '] (ids.map String.toList) ++ [']']) =
        some (9 + (itemsBefore p ids).length) := by
    cases ids with
    | nil => cases hp
    | cons q ids =>
      have hlegible : ∀ i ∈ plainItem 0 q :: ids.map (plainItem 1), i.IsLegible := by
        rw [List.forall_mem_cons, List.forall_mem_map] at *
        exact ⟨isLegible_plainItem h.1 0, fun r hr => isLegible_plainItem (h.2 r hr) 1⟩
      have hline : Bracketed.line [' ', ' '] (plainItem 0 q :: ids.map (plainItem 1))
          = "  from: [".toList ++ join [',', ' '] ((q :: ids).map String.toList) ++ [']'] := by
        rw [Bracketed.line, join_plainItems]
        rfl
      rw [← hline,
        Bracketed.bracketReference?_eq_column? (List.all_eq_true.1 rfl) (by simp) hlegible,
        column?_plainItems hp]
      rfl
  rw [lineReference?, hitem, hbrackets, String.length_toList]
  rfl

/-! ## References in a list of predecessors -/

/-- Where a predecessor is listed first, in the entry that starts at line `i`: as a list item
that covers hyphen, blank and id, or in brackets, where only the id is covered. -/
def listedAt (i : Nat) (ids : List String) (p : String) : Option Outline.Style → Option Span
  | none => none
  | some .block => some ⟨i + 2 + (ids.takeWhile (· ≠ p)).length, 2, p.length + 2⟩
  | some .brackets =>
    some ⟨i + 1, 9 + (itemsBefore p ids).length, p.length⟩

/-- What the span of a listed predecessor covers. -/
def reference (p : String) : Outline.Style → List Char
  | .block => ['-', ' '] ++ p.toList
  | .brackets => p.toList

theorem eq_reference {p : String} {piece : List Char} {style : Outline.Style}
    (hpiece : piece ∈ referenceTexts p.toList)
    (hlength : piece.length = (reference p style).length) : piece = reference p style := by
  simp only [referenceTexts, List.mem_cons, List.not_mem_nil, or_false] at hpiece
  -- The ways to write a reference differ in length, up to the kind of quotes.
  cases style <;> rcases hpiece with rfl | rfl | rfl | rfl <;>
    simp only [reference, List.length_append, List.length_cons, List.length_nil]
      at hlength ⊢ <;> omega

theorem length_of_listedAt {i : Nat} {ids : List String} {p : String} {style : Outline.Style}
    {s : Span} (h : listedAt i ids p (some style) = some s) :
    s.length = (reference p style).length := by
  cases style <;> obtain rfl := Option.some.inj h <;> simp [reference, String.length_toList]

/-! ### Looking for a predecessor -/

theorem firstReference?_append (id : List Char) (i : Nat) (xs ys : List (List Char)) :
    firstReference? id i (xs ++ ys) =
      (firstReference? id i xs).or (firstReference? id (i + xs.length) ys) := by
  induction xs generalizing i with
  | nil => rw [List.nil_append, firstReference?, Option.none_or, List.length_nil, Nat.add_zero]
  | cons x xs ih =>
    rw [List.cons_append, firstReference?, firstReference?, ih, Option.or_assoc,
      List.length_cons, Nat.add_right_comm i 1, Nat.add_assoc i]

/-- There are no references in empty lines. -/
theorem firstReference?_empty (id : List Char) (i k : Nat) :
    firstReference? id i (List.replicate k []) = none := by
  induction k generalizing i with
  | zero => rfl
  | succ k ih =>
    have hempty : lineReference? id i [] = none := rfl
    rw [List.replicate_succ, firstReference?, hempty, Option.none_or, ih]

/-- A label is no record, so the line of an entry refers to nothing. -/
theorem recordReference?_firstLine {n : Node} (h : n.IsPlain) (id : List Char) (k : Header) :
    recordReference? id k (firstLine n) = none := by
  have htrim : trimStart (' ' :: n.label.toList) = trimStart n.label.toList := rfl
  have hlabel := h.no_record
  rw [recordReference?, itemKey?_firstLine h.id]
  simp only [htrim]
  split
  · next rest hrest => exact absurd (by rw [hrest]; rfl) hlabel
  · rfl

theorem firstReference?_listLines {ids : List String} (h : ∀ q ∈ ids, IsPlainId q.toList)
    {p : String} (hp : p ∈ ids) (i : Nat) (style : Option Outline.Style) :
    firstReference? p.toList (i + 1) (listLines ids style) = listedAt i ids p style := by
  cases style with
  | none => rfl
  | some style =>
    cases style with
    | block =>
      rw [listLines, firstReference?_block h, if_pos hp]
      rfl
    | brackets =>
      have hline : listLines ids (some .brackets) =
          ["  from: [".toList ++ join [',', ' '] (ids.map String.toList) ++ [']']] := rfl
      rw [hline, firstReference?, lineReference?_brackets h hp, Option.some_or]
      rfl

end ThreatTree.Location
