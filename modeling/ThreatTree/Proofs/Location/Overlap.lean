import ThreatTree.Document.OfValue
import ThreatTree.Proofs.Graph.Declared
import ThreatTree.Proofs.Location.Partition
import ThreatTree.Proofs.Location.Selection

/-!
# References of a block that overlap

Two predecessors of a node have their references in one block. Two items of a list in brackets are
apart (`apart_of_bracketReference?`), and so are references on different lines. What is left is a
line that is a list item: its reference starts at the hyphen, so the reference to the other
predecessor may start inside it (`OverlapsInItem`).

This needs a name of one predecessor that starts with a name of the other and goes on as if a
reference ended there (`IsTakenFor`), or else an id with a list in brackets in it. Unmarked ids are
neither, so their references never overlap (`Index.references_apart`). With colons in ids they may
(`Index.references_overlap`).
-/

namespace ThreatTree

namespace Location

open Text

/-! ## Names that start with a name -/

/-- The text starts with a name of the node, and a reference can end behind the name. -/
def StartsWithName (id s : List Char) : Prop :=
  ∃ name ∈ names id, ∃ after, s = name ++ after ∧ endsReference after = true

/-- A list item with a name of the first node is taken for a reference to the second. -/
def IsTakenFor (q p : List Char) : Prop := ∃ name ∈ names q, StartsWithName p name

/-- Where a reference ends, it ends also if less follows. -/
theorem endsReference_of_append {s t : List Char} (h : endsReference (s ++ t) = true) :
    endsReference s = true := by
  unfold endsReference trimStart at h ⊢
  cases htrim : s.dropWhile isBlank with
  | nil => rfl
  | cons c rest =>
    rw [List.dropWhile_append, htrim] at h
    exact h

theorem isTakenFor_of_startsWithName {p q s : List Char} (hp : StartsWithName p s)
    (hq : StartsWithName q s) : IsTakenFor p q ∨ IsTakenFor q p := by
  obtain ⟨name, hname, after, rfl, hends⟩ := hp
  obtain ⟨name', hname', after', heq, hends'⟩ := hq
  rcases List.append_eq_append_iff.1 heq with ⟨more, rfl, rfl⟩ | ⟨more, rfl, rfl⟩
  · exact .inr ⟨_, hname', name, hname, more, rfl, endsReference_of_append hends⟩
  · exact .inl ⟨_, hname, name', hname', more, rfl, endsReference_of_append hends'⟩

/-- A character at which a reference may end or a list in brackets may start. -/
def isMark (c : Char) : Bool := isBlank c || isQuote c || c == ':' || c == '#' || c == '['

/-- An id without white space, quotes, colons, hash signs and opening brackets. -/
def IsUnmarked (id : List Char) : Prop := ∀ c ∈ id, isMark c = false

instance (id : List Char) : Decidable (IsUnmarked id) :=
  decidable_of_iff (id.all (fun c => !isMark c) = true) (by simp [IsUnmarked])

theorem names_cases {id name : List Char} (h : name ∈ names id) :
    name = id ∨ ∃ q, isQuote q = true ∧ name = [q] ++ id ++ [q] := by
  simp only [names, List.mem_cons, List.not_mem_nil, or_false] at h
  rcases h with rfl | rfl | rfl
  · exact .inl rfl
  · exact .inr ⟨'"', rfl, rfl⟩
  · exact .inr ⟨'\'', rfl, rfl⟩

/-- A name has the characters of the id, and perhaps quotes. -/
theorem mem_of_mem_name {id name : List Char} (h : name ∈ names id) {c : Char} (hc : c ∈ name) :
    c ∈ id ∨ isQuote c = true := by
  rcases names_cases h with rfl | ⟨q, hq, rfl⟩
  · exact .inl hc
  · simp only [List.mem_append, List.mem_singleton] at hc
    rcases hc with (rfl | hc) | rfl
    · exact .inr hq
    · exact .inl hc
    · exact .inr hq

/-- Without its quotes, a name of an unmarked id is the id. -/
theorem IsUnmarked.filter_name {id name : List Char} (h : IsUnmarked id) (hname : name ∈ names id) :
    name.filter (fun c => !isQuote c) = id := by
  have hid : id.filter (fun c => !isQuote c) = id := by
    rw [List.filter_eq_self]
    intro c hc
    have hmark := h c hc
    simp only [isMark, Bool.or_eq_false_iff] at hmark
    simp [hmark]
  rcases names_cases hname with rfl | ⟨q, hq, rfl⟩
  · exact hid
  · rw [List.filter_append, List.filter_append, hid]
    simp [hq]

/-- Inside a name of an unmarked id no reference ends. -/
theorem IsUnmarked.eq_nil_of_endsReference {id name before after : List Char} (h : IsUnmarked id)
    (hname : name ∈ names id) (heq : name = before ++ after) (hends : endsReference after = true) :
    after = [] := by
  cases after with
  | nil => rfl
  | cons c after =>
    have hc : isBlank c = false ∧ c ≠ ':' ∧ c ≠ '#' := by
      have hmem : c ∈ name := by simp [heq]
      rcases mem_of_mem_name hname hmem with hid | hquote
      · have hmark := h c hid
        simp only [isMark, Bool.or_eq_false_iff, beq_eq_false_iff_ne] at hmark
        exact ⟨hmark.1.1.1.1, hmark.1.1.2, hmark.1.2⟩
      · have hcases : c = '"' ∨ c = '\'' := by simpa [isQuote] using hquote
        rcases hcases with rfl | rfl <;> decide
    rw [endsReference, trimStart_cons_of_not_blank hc.1] at hends
    simp [hc.2] at hends

theorem IsUnmarked.eq_of_isTakenFor {p q : List Char} (hp : IsUnmarked p) (hq : IsUnmarked q)
    (h : IsTakenFor q p) : q = p := by
  obtain ⟨name', hname', name, hname, after, heq, hends⟩ := h
  obtain rfl := hq.eq_nil_of_endsReference hname' heq hends
  rw [List.append_nil] at heq
  rw [← hq.filter_name hname', heq, hp.filter_name hname]

/-! ## In brackets -/

/-- An item with the id that is asked for has it inside; otherwise the search goes on behind the
item and its comma. -/
theorem findItem?_cases {id item : List Char} {items : List (List Char)} {column n : Nat}
    (h : findItem? id column (item :: items) = some n) :
    ((bracketItem item).2 = id ∧ n + id.length ≤ column + item.length)
      ∨ column + item.length + 1 ≤ n ∧ findItem? id (column + item.length + 1) items = some n := by
  rw [findItem?_cons] at h
  split at h
  · next hid =>
    obtain rfl := Option.some.inj h
    obtain ⟨before, after, hitem, hlength⟩ := exists_of_bracketItem item
    have hlengths := congrArg List.length hitem
    rw [List.length_append, List.length_append, hid] at hlengths
    refine .inl ⟨hid, ?_⟩
    omega
  · obtain ⟨before, -, -, rfl⟩ := exists_of_findItem? h
    exact .inr ⟨Nat.le_add_right _ _, h⟩

theorem apart_of_findItem? {p q : List Char} (hne : p ≠ q) {items : List (List Char)}
    {column n m : Nat} (hp : findItem? p column items = some n)
    (hq : findItem? q column items = some m) : n + p.length ≤ m ∨ m + q.length ≤ n := by
  induction items generalizing column with
  | nil => simp [findItem?] at hp
  | cons item items ih =>
    rcases findItem?_cases hp with ⟨hid, hlast⟩ | ⟨hfirst, hp⟩
    · rcases findItem?_cases hq with ⟨hid', -⟩ | ⟨hfirst', -⟩
      · exact absurd (hid.symm.trans hid') hne
      · omega
    · rcases findItem?_cases hq with ⟨-, hlast⟩ | ⟨-, hq⟩
      · omega
      · exact ih hp hq

theorem apart_of_bracketReference? {p q s : List Char} (hne : p ≠ q) {prev : Option Char}
    {column n m : Nat} (hp : bracketReference? prev column p s = some n)
    (hq : bracketReference? prev column q s = some m) : n + p.length ≤ m ∨ m + q.length ≤ n := by
  unfold bracketReference? at hp hq
  split at hp
  · exact absurd hp (by simp)
  · next hlist =>
    rw [hlist] at hq
    exact apart_of_findItem? hne hp hq

/-! ## On a line -/

/-- The reference `s` to the node is a list item, and `t` starts inside it. -/
structure StartsInItem (id : List Char) (s t : Span) : Prop where
  line_eq : s.line = t.line
  /-- A list item is longer than the id; an item in brackets is as long as the id. -/
  isItem : id.length < s.length
  le_column : s.column ≤ t.column
  column_lt : t.column < s.column + s.length

/-- A list item that refers to the node: where it is, and the name behind its hyphen. -/
structure IsItemReference (id line : List Char) (i : Nat) (s : Span) : Prop where
  line_eq : s.line = i
  column_eq : s.column = (margin line).length
  lt_length : id.length < s.length
  startsWithName : ∃ name ∈ names id, ∃ after, line = margin line ++ '-' :: ' ' :: (name ++ after)
    ∧ endsReference after = true ∧ s.length = name.length + 2

theorem line_eq_of_lineReference? {id line : List Char} {i : Nat} {s : Span}
    (h : lineReference? id i line = some s) : s.line = i := by
  rcases lineReference?_cases h with ⟨r, -, rfl⟩ | ⟨column, -, rfl⟩
  · rfl
  · rfl

theorem isItemReference_of_itemReference? {id line : List Char} {r : ItemReference}
    (h : itemReference? id line = some r) (i : Nat) :
    IsItemReference id line i ⟨i, r.indent, id.length + if r.quoted then 4 else 2⟩ := by
  obtain ⟨name, hname, after, hparts, hends, hindent, hlength⟩ := exists_name_of_itemReference? h
  refine ⟨rfl, hindent.symm, ?_, name, hname, after, hparts, hends, hlength.symm⟩
  show id.length < id.length + if r.quoted then 4 else 2
  split <;> omega

variable {p q line : List Char} {i : Nat} {s t : Span}

/-- Two references in one list item start at its hyphen. -/
theorem IsItemReference.startsInItem (hs : IsItemReference p line i s)
    (ht : IsItemReference q line i t) : StartsInItem p s t := by
  have hcolumn : s.column = t.column := hs.column_eq.trans ht.column_eq.symm
  have hlt := hs.lt_length
  exact ⟨hs.line_eq.trans ht.line_eq.symm, hlt, Nat.le_of_eq hcolumn, by omega⟩

theorem IsItemReference.isTakenFor (hs : IsItemReference p line i s)
    (ht : IsItemReference q line i t) : IsTakenFor p q ∨ IsTakenFor q p := by
  obtain ⟨name, hname, after, hparts, hends, -⟩ := hs.startsWithName
  obtain ⟨name', hname', after', hparts', hends', -⟩ := ht.startsWithName
  have hrest : name ++ after = name' ++ after' := by
    have heq := List.append_cancel_left (hparts.symm.trans hparts')
    simpa using heq
  exact isTakenFor_of_startsWithName ⟨name, hname, after, rfl, hends⟩
    ⟨name', hname', after', hrest, hends'⟩

/-- A list in brackets starts behind the margin, so an item in it does not start where the list
item of its line does. If it starts inside a reference there, the bracket is inside the id. -/
theorem IsItemReference.bracket (hs : IsItemReference p line i s) {column : Nat}
    (hcolumn : bracketReference? none 0 q line = some column) :
    s.column < column ∧ (column < s.column + s.length → '[' ∈ p) := by
  obtain ⟨before, after, hline, rfl, hbracket, -⟩ := exists_of_bracketReference? hcolumn
  obtain ⟨name, hname, rest, hparts, -, hlength⟩ := hs.startsWithName
  have hmargin : '[' ∉ margin line := fun hmem => absurd (isBlank_of_mem_margin hmem) (by decide)
  rw [Nat.zero_add, hs.column_eq, hlength]
  have hbefore : before <+: line := ⟨q ++ after, by rw [hline, List.append_assoc]⟩
  constructor
  · refine Nat.lt_of_not_le fun hle => hmargin ?_
    have hprefix := List.prefix_of_prefix_length_le hbefore ⟨_, hparts.symm⟩ hle
    exact hprefix.subset hbracket
  · intro hlt
    have hprefix : before <+: margin line ++ '-' :: ' ' :: name := by
      apply List.prefix_of_prefix_length_le hbefore
      · exact ⟨rest, by rw [List.append_assoc]; exact hparts.symm⟩
      · simp only [List.length_append, List.length_cons]
        omega
    have hmem := hprefix.subset hbracket
    simp only [List.mem_append, List.mem_cons] at hmem
    rcases hmem with hmem | hmem | hmem | hmem
    · exact absurd hmem hmargin
    · exact absurd hmem (by decide)
    · exact absurd hmem (by decide)
    · rcases mem_of_mem_name hname hmem with hmem | hquote
      · exact hmem
      · exact absurd hquote (by decide)

/-- The references `s` and `t` to two nodes overlap only if one of them starts in the list item that
is the other, and only for the sake of their ids. -/
structure OverlapsInItem (p q : List Char) (s t : Span) : Prop where
  not_apart_iff : ¬ s.Apart t ↔ StartsInItem p s t ∨ StartsInItem q t s
  isTakenFor : ¬ s.Apart t → IsTakenFor p q ∨ IsTakenFor q p ∨ '[' ∈ p ∨ '[' ∈ q

namespace OverlapsInItem

theorem symm (h : OverlapsInItem p q s t) : OverlapsInItem q p t s := by
  constructor
  case not_apart_iff => rw [Span.apart_comm, h.not_apart_iff, or_comm]
  case isTakenFor =>
    intro hnot
    rw [Span.apart_comm] at hnot
    rcases h.isTakenFor hnot with htaken | htaken | hbracket | hbracket
    · exact .inr (.inl htaken)
    · exact .inl htaken
    · exact .inr (.inr (.inr hbracket))
    · exact .inr (.inr (.inl hbracket))

theorem of_apart (h : s.Apart t) (hs : ¬ StartsInItem p s t) (ht : ¬ StartsInItem q t s) :
    OverlapsInItem p q s t := by
  constructor
  case not_apart_iff => simp [h, hs, ht]
  case isTakenFor => exact fun hnot => absurd h hnot

theorem of_startsInItem (h : StartsInItem p s t) (hlt : s.column < t.column + t.length)
    (hids : IsTakenFor p q ∨ IsTakenFor q p ∨ '[' ∈ p ∨ '[' ∈ q) : OverlapsInItem p q s t := by
  have hnot : ¬ s.Apart t := by
    have hline := h.line_eq
    have hcolumn := h.column_lt
    unfold Span.Apart
    omega
  exact ⟨iff_of_true hnot (.inl h), fun _ => hids⟩

theorem of_line_ne (h : s.line ≠ t.line) : OverlapsInItem p q s t :=
  of_apart (.inl h) (fun hstarts => h hstarts.line_eq) fun hstarts => h hstarts.line_eq.symm

/-- References in brackets are as long as the ids, so neither is a list item. -/
theorem of_brackets {n m : Nat} (h : n + p.length ≤ m ∨ m + q.length ≤ n) :
    OverlapsInItem p q ⟨i, n, p.length⟩ ⟨i, m, q.length⟩ :=
  of_apart (.inr h) (fun hstarts => absurd hstarts.isItem (Nat.lt_irrefl _)) fun hstarts =>
    absurd hstarts.isItem (Nat.lt_irrefl _)

theorem of_items (hs : IsItemReference p line i s) (ht : IsItemReference q line i t) :
    OverlapsInItem p q s t := by
  have hstarts := hs.startsInItem ht
  have hlt : s.column < t.column + t.length := by
    have hlength := ht.lt_length
    have hcolumn := hstarts.le_column
    omega
  refine of_startsInItem hstarts hlt ?_
  rcases hs.isTakenFor ht with htaken | htaken
  · exact .inl htaken
  · exact .inr (.inl htaken)

theorem of_item_of_bracket (hs : IsItemReference p line i s) {column : Nat}
    (hcolumn : bracketReference? none 0 q line = some column) :
    OverlapsInItem p q s ⟨i, column, q.length⟩ := by
  obtain ⟨hlt, hbracket⟩ := hs.bracket hcolumn
  by_cases hinside : column < s.column + s.length
  · have hstarts : StartsInItem p s ⟨i, column, q.length⟩ :=
      ⟨hs.line_eq, hs.lt_length, Nat.le_of_lt hlt, hinside⟩
    exact of_startsInItem hstarts (Nat.lt_add_right _ hlt) (.inr (.inr (.inl (hbracket hinside))))
  · exact of_apart (.inr (.inl (Nat.le_of_not_lt hinside)))
      (fun hstarts => hinside hstarts.column_lt) fun hstarts =>
        absurd hstarts.isItem (Nat.lt_irrefl _)

/-- One case for each way in which a reference stands on a line. -/
theorem of_lineReference? (hne : p ≠ q) (hs : lineReference? p i line = some s)
    (ht : lineReference? q i line = some t) : OverlapsInItem p q s t := by
  rcases lineReference?_cases hs with ⟨r, hr, rfl⟩ | ⟨column, hcolumn, rfl⟩
  · have hitem := isItemReference_of_itemReference? hr i
    rcases lineReference?_cases ht with ⟨r', hr', rfl⟩ | ⟨column', hcolumn', rfl⟩
    · exact of_items hitem (isItemReference_of_itemReference? hr' i)
    · exact of_item_of_bracket hitem hcolumn'
  · rcases lineReference?_cases ht with ⟨r', hr', rfl⟩ | ⟨column', hcolumn', rfl⟩
    · exact (of_item_of_bracket (isItemReference_of_itemReference? hr' i) hcolumn).symm
    · exact of_brackets (apart_of_bracketReference? hne hcolumn hcolumn')

/-- The references of two nodes in one block. -/
theorem of_reference? {lines : List (List Char)} {hs : List Header} {h : Header} (hne : p ≠ q)
    (hp : reference? lines hs h p = some s) (hq : reference? lines hs h q = some t) :
    OverlapsInItem p q s t := by
  rcases reference?_cases hp with ⟨line, hline, hrecord⟩ | ⟨i, line, hlt, -, hline, href⟩
  · obtain ⟨k, column, hk, hcolumn, rfl⟩ := exists_of_recordReference? hrecord
    rcases reference?_cases hq with ⟨line', hline', hrecord'⟩ | ⟨j, line', hlt, -, -, href'⟩
    · obtain rfl : line = line' := Option.some.inj (hline.symm.trans hline')
      obtain ⟨k', column', hk', hcolumn', rfl⟩ := exists_of_recordReference? hrecord'
      obtain rfl : k = k' := Option.some.inj (hk.symm.trans hk')
      exact of_brackets (apart_of_bracketReference? hne hcolumn hcolumn')
    · apply of_line_ne
      rw [line_eq_of_lineReference? href']
      exact Nat.ne_of_lt hlt
  · rcases reference?_cases hq with ⟨line', -, hrecord'⟩ | ⟨j, line', -, -, hline', href'⟩
    · obtain ⟨k, column, -, -, rfl⟩ := exists_of_recordReference? hrecord'
      apply of_line_ne
      rw [line_eq_of_lineReference? href]
      exact Nat.ne_of_gt hlt
    · by_cases hij : i = j
      · subst hij
        obtain rfl : line = line' := Option.some.inj (hline.symm.trans hline')
        exact of_lineReference? hne href href'
      · apply of_line_ne
        rwa [line_eq_of_lineReference? href, line_eq_of_lineReference? href']

end OverlapsInItem

namespace Index

/-- **Where references to predecessors of one node overlap**, for every text and document. Two of
them overlap exactly if one is a list item and the other starts inside it. Then a name of one of the
nodes is taken for the other, or an id has an opening bracket. So references to nodes with unmarked
ids do not overlap, and neither do any two references in brackets. -/
theorem references_apart (text : List Char) (d : Document) {source source' target : String}
    {s t : Span} (hne : source ≠ source')
    (hs : (build text d).edge? source target = some s)
    (ht : (build text d).edge? source' target = some t) :
    (¬ s.Apart t ↔ StartsInItem source.toList s t ∨ StartsInItem source'.toList t s)
      ∧ (¬ s.Apart t → IsTakenFor source.toList source'.toList
        ∨ IsTakenFor source'.toList source.toList
        ∨ '[' ∈ source.toList ∨ '[' ∈ source'.toList)
      ∧ (IsUnmarked source.toList → IsUnmarked source'.toList → s.Apart t) := by
  have hne' : source.toList ≠ source'.toList := fun heq => hne (String.toList_inj.1 heq)
  obtain ⟨-, h, hh, href⟩ := mem_edges_build.1 (mem_edges_build_iff.2 hs)
  obtain ⟨-, h', hh', href'⟩ := mem_edges_build.1 (mem_edges_build_iff.2 ht)
  obtain rfl : h = h' := Option.some.inj (hh.symm.trans hh')
  have hoverlaps := OverlapsInItem.of_reference? hne' href href'
  refine ⟨hoverlaps.not_apart_iff, hoverlaps.isTakenFor, ?_⟩
  intro hunmarked hunmarked'
  by_contra hnot
  rcases hoverlaps.isTakenFor hnot with htaken | htaken | hbracket | hbracket
  · exact hne' (hunmarked'.eq_of_isTakenFor hunmarked htaken)
  · exact hne' (hunmarked.eq_of_isTakenFor hunmarked' htaken).symm
  · exact absurd (hunmarked _ hbracket) (by decide)
  · exact absurd (hunmarked' _ hbracket) (by decide)

/-- An attack that follows from two facts. -/
def joining (id id' : String) (h : Text.allBlank id.toList = false)
    (h' : Text.allBlank id'.toList = false) : Document where
  title := "Attack Tree"
  theme := none
  facts := [⟨id, "A", .fact, [], [], [], h⟩, ⟨id', "B", .fact, [], [], [], h'⟩]
  attacks := [⟨"x", "X", .attack, [id', id], [], [], rfl⟩]
  mitigations := []
  goals := []

/-- An id that starts with the other one, and both are unmarked. -/
theorem references_apart_of_unmarked :
    let text := "facts:\n- net: A\n- network: B\nattacks:\n- x: X\n  from:\n  - network\n  - net\n"
    let d := joining "net" "network" (by decide) (by decide)
    let ix := build text.toList d
    Document.ofText text = .ok d
      ∧ ix.edge? "net" "x" = some ⟨7, 2, 5⟩ ∧ ix.edge? "network" "x" = some ⟨6, 2, 9⟩
      ∧ Span.Apart ⟨7, 2, 5⟩ ⟨6, 2, 9⟩ := by
  intro text d ix
  have hnet : ix.edge? "net" "x" = some ⟨7, 2, 5⟩ := by decide +kernel
  have hnetwork : ix.edge? "network" "x" = some ⟨6, 2, 9⟩ := by decide +kernel
  obtain ⟨-, -, hunmarked⟩ := references_apart text.toList d (by decide) hnet hnetwork
  exact ⟨by decide +kernel, hnet, hnetwork, hunmarked (by decide) (by decide)⟩

/-- The reference to the longer id is also taken for one to the shorter id. -/
theorem references_overlap :
    let text := "facts:\n- net: A\n- net:work: B\nattacks:\n- x: X\n  from:\n"
      ++ "  - net:work\n  - net\n"
    let d := joining "net" "net:work" (by decide) (by decide)
    let ix := build text.toList d
    Document.ofText text = .ok d ∧ (∃ g, d.compile .builtin none = .ok g)
      ∧ ix.edge? "net" "x" = some ⟨6, 2, 5⟩ ∧ ix.edge? "net:work" "x" = some ⟨6, 2, 10⟩
      ∧ ¬ Span.Apart ⟨6, 2, 5⟩ ⟨6, 2, 10⟩ := by
  intro text d ix
  have hcompile : d.compile .builtin none
      = .ok (Graph.draw "Attack Tree" (Registry.builtin.resolve none) d.nodes) :=
    Document.compile_eq_ok_iff.2 ⟨⟨by decide, by unfold Graph.Refers; decide⟩, rfl⟩
  refine ⟨by decide +kernel, ⟨_, hcompile⟩, by decide +kernel, by decide +kernel, ?_⟩
  simp [Span.Apart]

end Index

end Location

end ThreatTree
