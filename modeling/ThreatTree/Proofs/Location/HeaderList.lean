import Mathlib.Data.List.Sort
import ThreatTree.Proofs.Location.HeaderRule

/-!
# The headers in one list

What the lines of keys and of list items look like is said by their parts: a `KeyLine` is a key at
the left margin with what follows its colon, and an `ItemLine` is a list item with white space, an
id and what follows the colon behind it. No line has two ways to be cut into the parts of a list
item (`ItemLine.text_injective`).

`Header.IsIn` says in these terms, without the readers of a line, which headers are in a text, and
`headers_eq_iff` says that the scan finds them all, in the order of their lines and each once.
-/

namespace ThreatTree.Location

open Text

variable {lines : List (List Char)} {line key : List Char} {i k n : Nat} {c : Category}

/-! ## Keys at the left margin -/

/-- A line with a key at the left margin. The key goes to the first colon behind its first
character, and that colon ends a word. -/
structure KeyLine where
  key : List Char
  after : List Char
  starts : ∃ c rest, key = c :: rest ∧ isBlank c = false ∧ c ≠ '#' ∧ c ≠ '-' ∧ ':' ∉ rest
  ends : atBlankOrEnd after = true

def KeyLine.text (x : KeyLine) : List Char := x.key ++ ':' :: x.after

theorem cutColon_append {before : List Char} (h : ':' ∉ before) (after : List Char) :
    cutColon (before ++ ':' :: after) = some (before, after) := by
  induction before with
  | nil => rfl
  | cons d before ih =>
    rw [List.mem_cons, not_or] at h
    rw [List.cons_append, cutColon, if_neg (Ne.symm h.1), ih h.2, Option.map_some]

theorem eq_of_cutColon {s before after : List Char} (h : cutColon s = some (before, after)) :
    s = before ++ ':' :: after ∧ ':' ∉ before := by
  induction s generalizing before with
  | nil => exact absurd h (by simp [cutColon])
  | cons d s ih =>
    rw [cutColon] at h
    by_cases hd : d = ':'
    · rw [if_pos hd] at h
      obtain ⟨rfl, rfl⟩ := Prod.mk.inj (Option.some.inj h)
      exact ⟨by rw [hd, List.nil_append], by simp⟩
    · rw [if_neg hd] at h
      obtain ⟨⟨front, rest⟩, hcut, heq⟩ := Option.map_eq_some_iff.1 h
      obtain ⟨rfl, rfl⟩ := Prod.mk.inj heq
      obtain ⟨rfl, hnot⟩ := ih hcut
      exact ⟨rfl, by simp [Ne.symm hd, hnot]⟩

theorem KeyLine.topLevelKey?_text (x : KeyLine) : topLevelKey? x.text = some x.key := by
  obtain ⟨key, after, ⟨c, rest, rfl, hblank, hhash, hhyphen, hcolon⟩, hends⟩ := x
  rw [KeyLine.text, List.cons_append, topLevelKey?, if_neg (by simp [hblank, hhash, hhyphen]),
    cutColon_append hcolon]
  exact if_pos hends

theorem topLevelKey?_eq_some_iff :
    topLevelKey? line = some key ↔ ∃ x : KeyLine, x.text = line ∧ x.key = key := by
  constructor
  · intro h
    cases line with
    | nil => exact absurd h (by simp [topLevelKey?])
    | cons c rest =>
      rw [topLevelKey?] at h
      split at h
      · exact absurd h (by simp)
      · next hstart =>
        obtain ⟨⟨hblank, hhash⟩, hhyphen⟩ :
            (isBlank c = false ∧ c ≠ '#') ∧ c ≠ '-' := by simpa using hstart
        split at h
        · next before after hcut =>
          split at h
          · next hends =>
            obtain rfl := Option.some.inj h
            obtain ⟨rfl, hcolon⟩ := eq_of_cutColon hcut
            exact ⟨⟨c :: before, after, ⟨c, before, rfl, hblank, hhash, hhyphen, hcolon⟩, hends⟩,
              rfl, rfl⟩
          · exact absurd h (by simp)
        · exact absurd h (by simp)
  · rintro ⟨x, rfl, rfl⟩
    exact x.topLevelKey?_text

/-- The key is, white space apart, the name of a section. -/
theorem sectionOf?_eq_some_iff :
    sectionOf? key = some c ↔ trim key = c.sectionName.toList := by
  have hfind (s : String) : Category.ofSection? s = some c ↔ c.sectionName = s := by
    constructor
    · intro h
      have hname := List.find?_some h
      exact of_decide_eq_true hname
    · rintro rfl
      cases c <;> rfl
  rw [sectionOf?, hfind, ← String.toList_inj, String.toList_ofList, eq_comm]

/-! ## List items with a key -/

/-- A line with a list item that has an id as its key. The colon behind the id ends a word, and no
colon inside the id does. -/
@[ext] structure ItemLine where
  margin : List Char
  id : List Char
  after : List Char
  isBlank_margin : ∀ c ∈ margin, isBlank c = true
  starts : ∃ c, id.head? = some c ∧ isBlank c = false ∧ c ≠ ':' ∧ c ≠ '#'
  colons : ∀ before c rest, id = before ++ ':' :: c :: rest → isBlank c = false
  ends : atBlankOrEnd after = true

def ItemLine.text (x : ItemLine) : List Char := x.margin ++ ['-', ' '] ++ x.id ++ ':' :: x.after

/-- A colon at the end of an id stands in front of the colon behind the id. -/
theorem forall_colon_iff {id after : List Char} :
    (∀ before rest, id = before ++ ':' :: rest → atBlankOrEnd (rest ++ ':' :: after) = false)
      ↔ ∀ before c rest, id = before ++ ':' :: c :: rest → isBlank c = false := by
  constructor
  · intro h before c rest hid
    exact h before (c :: rest) hid
  · intro h before rest hid
    cases rest with
    | nil => rfl
    | cons c rest => exact h before c rest hid

theorem itemKey?_eq_some_iff_exists {item : ItemKey} :
    itemKey? line = some item ↔ ∃ x : ItemLine, x.text = line
      ∧ (⟨x.margin.length, x.id, x.after⟩ : ItemKey) = item := by
  rw [itemKey?_eq_some_iff, IsItemKey]
  constructor
  · rintro ⟨margin, hline, hlength, hmargin, hends, hstarts, hcolon⟩
    refine ⟨⟨margin, item.id, item.after, hmargin, hstarts, forall_colon_iff.1 hcolon, hends⟩,
      hline.symm, ?_⟩
    rw [hlength]
  · rintro ⟨x, rfl, rfl⟩
    exact ⟨x.margin, rfl, rfl, x.isBlank_margin, x.ends, x.starts, forall_colon_iff.2 x.colons⟩

theorem ItemLine.itemKey?_text (x : ItemLine) :
    itemKey? x.text = some ⟨x.margin.length, x.id, x.after⟩ :=
  itemKey?_eq_some_iff_exists.2 ⟨x, rfl, rfl⟩

/-- A line can be cut into the parts of a list item in one way at most. -/
theorem ItemLine.text_injective : Function.Injective ItemLine.text := by
  intro x y h
  have hitem := x.itemKey?_text
  rw [h, y.itemKey?_text, Option.some.injEq, ItemKey.mk.injEq] at hitem
  obtain ⟨hlength, hid, hafter⟩ := hitem
  have hmargin : x.margin = y.margin := by
    simp only [ItemLine.text, List.append_assoc] at h
    exact List.append_inj_left h hlength.symm
  exact ItemLine.ext hmargin hid.symm hafter.symm

theorem isItem_iff_exists {indent : Nat} {id : List Char} : IsItem line indent id
    ↔ ∃ x : ItemLine, x.text = line ∧ x.margin.length = indent ∧ x.id = id := by
  rw [isItem_iff]
  simp only [itemKey?_eq_some_iff_exists, ItemKey.mk.injEq]
  constructor
  · rintro ⟨after, x, hline, hlength, hid, -⟩
    exact ⟨x, hline, hlength, hid⟩
  · rintro ⟨x, hline, hlength, hid⟩
    exact ⟨x.after, x, hline, hlength, hid, rfl⟩

/-! ## The headers in a text -/

/-- The key stands in line `k`, in front of line `i`, and no other key does from there on up to
line `i`. -/
def KeyLine.IsOver (x : KeyLine) (lines : List (List Char)) (k i : Nat) : Prop :=
  k < i ∧ lines[k]? = some x.text ∧ ∀ m, k < m → m ≤ i → ∀ y : KeyLine, lines[m]? ≠ some y.text

/-- The item stands in line `j`, and no item stands in the lines from line `k` up to there. -/
def ItemLine.IsFirst (x : ItemLine) (lines : List (List Char)) (k j : Nat) : Prop :=
  k < j ∧ lines[j]? = some x.text ∧ ∀ m, k < m → m < j → ∀ y : ItemLine, lines[m]? ≠ some y.text

/-- The line of the header has a list item under the key of a section, and the item is indented
as the first one behind that key. The header has the indent and the id of the item. -/
def Header.IsIn (h : Header) (lines : List (List Char)) : Prop :=
  ∃ (k j : Nat) (key : KeyLine) (first item : ItemLine),
    key.IsOver lines k h.line ∧ trim key.key = h.category.sectionName.toList
      ∧ first.IsFirst lines k j ∧ lines[h.line]? = some item.text
      ∧ item.margin.length = first.margin.length
      ∧ h.indent = item.margin.length ∧ h.id = String.ofList item.id

theorem bind_topLevelKey?_eq_some_iff : (lines[i]?).bind topLevelKey? = some key
    ↔ ∃ x : KeyLine, lines[i]? = some x.text ∧ x.key = key := by
  simp only [Option.bind_eq_some_iff, topLevelKey?_eq_some_iff]
  constructor
  · rintro ⟨line, hline, x, rfl, hkey⟩
    exact ⟨x, hline, hkey⟩
  · rintro ⟨x, hline, hkey⟩
    exact ⟨x.text, hline, x, rfl, hkey⟩

theorem bind_topLevelKey?_eq_none_iff : (lines[i]?).bind topLevelKey? = none
    ↔ ∀ x : KeyLine, lines[i]? ≠ some x.text := by
  simp only [Option.eq_none_iff_forall_ne_some, ne_eq, bind_topLevelKey?_eq_some_iff, not_exists,
    not_and]
  constructor
  · intro h x hline
    exact h x.key x hline rfl
  · intro h key x hline
    exact absurd hline (h x)

theorem isUnderKey_iff_exists : IsUnderKey lines k i key
    ↔ ∃ x : KeyLine, x.key = key ∧ x.IsOver lines k i := by
  simp only [IsUnderKey, bind_topLevelKey?_eq_some_iff, bind_topLevelKey?_eq_none_iff,
    KeyLine.IsOver]
  constructor
  · rintro ⟨hlt, ⟨x, hline, hkey⟩, hnone⟩
    exact ⟨x, hkey, hlt, hline, hnone⟩
  · rintro ⟨x, hkey, hlt, hline, hnone⟩
    exact ⟨hlt, ⟨x, hline, hkey⟩, hnone⟩

theorem isFirstItem_iff_exists {j : Nat} : IsFirstItem lines k j n
    ↔ ∃ x : ItemLine, x.margin.length = n ∧ x.IsFirst lines k j := by
  simp only [IsFirstItem, isItem_iff_exists, ItemLine.IsFirst]
  constructor
  · rintro ⟨hlt, ⟨line, id, hline, x, rfl, hlength, -⟩, hnone⟩
    exact ⟨x, hlength, hlt, hline, fun m hm hmj y hy =>
      hnone m _ _ _ hm hmj hy ⟨y, rfl, rfl, rfl⟩⟩
  · rintro ⟨x, hlength, hlt, hline, hnone⟩
    refine ⟨hlt, ⟨x.text, x.id, hline, x, rfl, hlength, rfl⟩, ?_⟩
    rintro m line indent id hm hmj hline' ⟨y, rfl, -, -⟩
    exact hnone m hm hmj y hline'

theorem isHeader_iff_isIn {h : Header} : IsHeader lines h ↔ h.IsIn lines := by
  simp only [IsHeader, isUnderKey_iff_exists, sectionOf?_eq_some_iff, isItem_iff_exists,
    isFirstItem_iff_exists, Header.IsIn]
  constructor
  · rintro ⟨k, -, line, ⟨key, rfl, hover⟩, hsection, hline, ⟨item, rfl, hindent, hid⟩, j, first,
      hfirst, hisFirst⟩
    exact ⟨k, j, key, first, item, hover, hsection, hisFirst, hline, hindent.trans hfirst.symm,
      hindent.symm, by rw [hid, String.ofList_toList]⟩
  · rintro ⟨k, j, key, first, item, hover, hsection, hisFirst, hline, hsame, hindent, hid⟩
    exact ⟨k, key.key, item.text, ⟨key, rfl, hover⟩, hsection, hline,
      ⟨item, rfl, hindent.symm, by rw [hid, String.toList_ofList]⟩, j, first,
      hsame.symm.trans hindent.symm, hisFirst⟩

/-- Headers in the order of their lines, each in a line of its own, are determined by which they
are. -/
theorem eq_of_pairwise_line {hs hs' : List Header}
    (h : hs.Pairwise fun x y => x.line < y.line) (h' : hs'.Pairwise fun x y => x.line < y.line)
    (hmem : ∀ x, x ∈ hs ↔ x ∈ hs') : hs = hs' := by
  have hirrefl : Std.Irrefl fun x y : Header => x.line < y.line := ⟨fun x => Nat.lt_irrefl x.line⟩
  have hantisymm : Std.Antisymm fun x y : Header => x.line < y.line :=
    ⟨fun x y hxy hyx => absurd hyx (Nat.lt_asymm hxy)⟩
  exact h.eq_of_mem_iff h' hmem

/-- **The scan finds the headers in a text, and lists them in the order of their lines.** The list
that it finds is the one list in that order, without two headers in one line, that has exactly the
headers in the text. What a header is taken from cannot be read in two ways: a line is cut into
white space, a hyphen and a blank, an id, a colon that ends a word, and a rest in one way at
most. -/
theorem headers_eq_iff (lines : List (List Char)) (hs : List Header) :
    (headers lines = hs
      ↔ hs.Pairwise (fun x y => x.line < y.line) ∧ ∀ h, h ∈ hs ↔ h.IsIn lines)
    ∧ Function.Injective ItemLine.text := by
  refine ⟨⟨?_, ?_⟩, ItemLine.text_injective⟩
  · rintro rfl
    exact ⟨pairwise_line_headers lines, fun h => mem_headers_iff.trans isHeader_iff_isIn⟩
  · rintro ⟨hpairwise, hmem⟩
    refine eq_of_pairwise_line (pairwise_line_headers lines) hpairwise fun h => ?_
    rw [mem_headers_iff, isHeader_iff_isIn, hmem]

/-- A colon that does not end a word belongs to the id, and deeper items are passed over. -/
example : headers (["goals :", " - a:: b:c: d", "   - e: f", " - :g: h", " - i:", "title: x",
      " - j: k"].map String.toList)
    = [⟨1, 1, "a:", .goal⟩, ⟨4, 1, "i", .goal⟩] := by
  decide

end ThreatTree.Location
