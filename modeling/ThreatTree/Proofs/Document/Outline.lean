import ThreatTree.Document.Outline
import ThreatTree.Proofs.Text.Pieces

/-!
# The lines of an outline

A document is conventional (`Document.IsConventional`) if its ids are distinct and need no
quotes, no title or label goes over several lines, and no label looks like a record. If the ids in
its lists need no quotes either (`Document.IsPlainOutline`), the text of its outline has the lines
that were written (`lines_eq`). An entry stands among them after the lines of everything that is
declared before it (`outlineLines_eq`).
-/

namespace ThreatTree

namespace Category

/-- The categories before this one. -/
def earlier (c : Category) : List Category := all.takeWhile (· ≠ c)

/-- The categories after this one. -/
def later (c : Category) : List Category := (all.dropWhile (· ≠ c)).tail

theorem all_eq (c : Category) : all = c.earlier ++ c :: c.later := by
  cases c <;> rfl

end Category

/-! ## Plain ids -/

/-- ASCII letters and digits, the underscore, the hyphen and the point. -/
def isPlain (c : Char) : Bool := c.isAlphanum || c == '_' || c == '-' || c == '.'

/-- Between the blank and the first control above ASCII there is no white space. -/
theorem isBlank_of_lt {c : Char} (hlow : 32 < c.toNat) (hhigh : c.toNat < 0x85) :
    Text.isBlank c = false := by
  simp [Text.isBlank]
  omega

theorem isBlank_of_isPlain {c : Char} (h : isPlain c = true) : Text.isBlank c = false := by
  have halnum : c.isAlphanum = (decide ('A'.val ≤ c.val ∧ c.val ≤ 'Z'.val)
      || decide ('a'.val ≤ c.val) && decide (c.val ≤ 'z'.val)
      || decide ('0'.val ≤ c.val) && decide (c.val ≤ '9'.val)) := rfl
  simp only [isPlain, halnum, Bool.or_eq_true, Bool.and_eq_true, decide_eq_true_eq, beq_iff_eq,
    UInt32.le_iff_toNat_le] at h
  rcases h with ((((⟨hl, hh⟩ | ⟨hl, hh⟩) | ⟨hl, hh⟩) | rfl) | rfl) | rfl
  · exact isBlank_of_lt (Nat.lt_of_lt_of_le (by decide) hl) (Nat.lt_of_le_of_lt hh (by decide))
  · exact isBlank_of_lt (Nat.lt_of_lt_of_le (by decide) hl) (Nat.lt_of_le_of_lt hh (by decide))
  · exact isBlank_of_lt (Nat.lt_of_lt_of_le (by decide) hl) (Nat.lt_of_le_of_lt hh (by decide))
  · decide
  · decide
  · decide

theorem ne_of_isPlain {c k : Char} (h : isPlain c = true) (hk : isPlain k = false) : c ≠ k := by
  rintro rfl
  rw [h] at hk
  exact absurd hk (by decide)

/-- An id that is read as it is written. -/
structure IsPlainId (id : List Char) : Prop where
  ne_nil : id ≠ []
  all_plain : ∀ c ∈ id, isPlain c = true

theorem IsPlainId.not_mem {id : List Char} (h : IsPlainId id) {k : Char}
    (hk : isPlain k = false) : k ∉ id := fun hmem =>
  ne_of_isPlain (h.all_plain k hmem) hk rfl

instance (id : List Char) : Decidable (IsPlainId id) :=
  decidable_of_iff (id ≠ [] ∧ id.all isPlain = true)
    ⟨fun h => ⟨h.1, List.all_eq_true.1 h.2⟩, fun h => ⟨h.ne_nil, List.all_eq_true.2 h.all_plain⟩⟩

/-- An entry of the node is read as it is written: its ids are plain, and its label stays on
one line and does not look like a record. -/
structure Node.IsPlain (n : Node) : Prop where
  id : IsPlainId n.id.toList
  predecessors : ∀ p ∈ n.predecessors, IsPlainId p.toList
  label : '\n' ∉ n.label.toList
  no_record : (Text.trimStart n.label.toList).head? ≠ some '\x7b'

instance (n : Node) : Decidable n.IsPlain :=
  decidable_of_iff (IsPlainId n.id.toList ∧ (∀ p ∈ n.predecessors, IsPlainId p.toList)
      ∧ '\n' ∉ n.label.toList ∧ (Text.trimStart n.label.toList).head? ≠ some '\x7b')
    ⟨fun h => ⟨h.1, h.2.1, h.2.2.1, h.2.2.2⟩,
      fun h => ⟨h.id, h.predecessors, h.label, h.no_record⟩⟩

/-- Ids are plain and distinct, and title and labels are what they look like once written. -/
structure Document.IsConventional (d : Document) : Prop where
  nodup : d.nodeIds.Nodup
  plain : ∀ n ∈ d.nodes, n.IsPlain
  title : '\n' ∉ d.title.toList

theorem Document.IsConventional.isPlain_of_listed {d : Document} (h : d.IsConventional)
    {c : Category} {n : Node} (hn : n ∈ d.listed c) : n.IsPlain :=
  h.plain n (List.mem_flatMap.2 ⟨c, Category.mem_all c, hn⟩)

namespace Outline

variable {d : Document} (listings : Node → List Listing) (gap : Category → Nat)

/-! ## Around an entry -/

/-- The lines before an entry: those of the sections before its own, and in its own section
those of the nodes before it. -/
def linesBefore (d : Document) (listings : Node → List Listing) (gap : Category → Nat)
    (c : Category) (before : List Node) : List (List Char) :=
  titleLine d :: c.earlier.flatMap (sectionLines d listings gap)
    ++ List.replicate (gap c) [] ++ keyLine c :: before.flatMap (entryLines listings)

/-- The lines after an entry. -/
def linesAfter (d : Document) (listings : Node → List Listing) (gap : Category → Nat)
    (tail : Nat) (c : Category) (after : List Node) : List (List Char) :=
  after.flatMap (entryLines listings) ++ c.later.flatMap (sectionLines d listings gap)
    ++ List.replicate tail []

theorem outlineLines_eq (tail : Nat) {c : Category} {before after : List Node} {n : Node}
    (h : d.listed c = before ++ n :: after) :
    d.outlineLines listings gap ++ List.replicate tail [] =
      linesBefore d listings gap c before
        ++ (entryLines listings n ++ linesAfter d listings gap tail c after) := by
  have hsection : sectionLines d listings gap c = List.replicate (gap c) [] ++ keyLine c ::
      (before.flatMap (entryLines listings)
        ++ (entryLines listings n ++ after.flatMap (entryLines listings))) := by
    rw [sectionLines, h, List.flatMap_append, List.flatMap_cons]
  rw [Document.outlineLines, Category.all_eq c, List.flatMap_append, List.flatMap_cons, hsection]
  simp [linesBefore, linesAfter]

theorem linesBefore_append (c : Category) (before : List Node) (n : Node) :
    linesBefore d listings gap c (before ++ [n]) =
      linesBefore d listings gap c before ++ entryLines listings n := by
  simp [linesBefore]

/-! ## The lists of an entry -/

/-- The lines of an entry behind its first one. -/
def bodyLines (listings : Node → List Listing) (n : Node) : List (List Char) :=
  (listings n).flatMap fun l => l.lines (idsUnder n l.key)

theorem entryLines_eq (n : Node) :
    entryLines listings n = firstLine n :: bodyLines listings n := rfl

/-- The line of a key that a list stands under. -/
def listStart (key : Reserved) : List Char := "  ".toList ++ key.name.toList ++ [':']

theorem lines_block (key : Reserved) (ids : List String) :
    Listing.lines ids ⟨key, .block⟩ =
      listStart key :: ids.map fun id => ' ' :: ' ' :: '-' :: ' ' :: id.toList := rfl

theorem lines_brackets (key : Reserved) (ids : List String) :
    Listing.lines ids ⟨key, .brackets⟩ =
      [listStart key ++ [' ', '['] ++ Text.join [',', ' '] (ids.map String.toList) ++ [']']] := rfl

theorem not_mem_join_ids {ids : List String} (h : ∀ p ∈ ids, IsPlainId p.toList) {k : Char}
    (hk : isPlain k = false) (hsep : k ∉ [',', ' ']) :
    k ∉ Text.join [',', ' '] (ids.map String.toList) := by
  intro hmem
  rcases Text.mem_of_mem_join hmem with hmem | ⟨piece, hpiece, hmem⟩
  · exact hsep hmem
  · obtain ⟨p, hp, rfl⟩ := List.mem_map.1 hpiece
    exact (h p hp).not_mem hk hmem

theorem lineFeed_not_mem_lines {ids : List String} (h : ∀ p ∈ ids, IsPlainId p.toList)
    {l : Listing} {line : List Char} (hline : line ∈ l.lines ids) : '\n' ∉ line := by
  obtain ⟨key, style⟩ := l
  have hstart : '\n' ∉ listStart key := by cases key <;> decide
  cases style with
  | block =>
    rw [lines_block, List.mem_cons, List.mem_map] at hline
    rcases hline with rfl | ⟨p, hp, rfl⟩
    · exact hstart
    · simpa using (h p hp).not_mem (by decide)
  | brackets =>
    rw [lines_brackets, List.mem_singleton] at hline
    subst hline
    simpa using ⟨hstart, not_mem_join_ids h (by decide) (by decide)⟩

end Outline

/-! ## The lines of the text -/

/-- An entry with its lists is read as it is written. -/
structure Node.IsPlainEntry (listings : Node → List Outline.Listing) (n : Node) : Prop
    extends n.IsPlain where
  listed : ∀ l ∈ listings n, ∀ id ∈ Outline.idsUnder n l.key, IsPlainId id.toList

/-- All entries of a conventional document are read as they are written, with their lists. -/
structure Document.IsPlainOutline (d : Document) (listings : Node → List Outline.Listing) : Prop
    extends d.IsConventional where
  listed : ∀ n ∈ d.nodes, ∀ l ∈ listings n, ∀ id ∈ Outline.idsUnder n l.key, IsPlainId id.toList

namespace Document.IsPlainOutline

variable {d : Document} {listings : Node → List Outline.Listing} (h : d.IsPlainOutline listings)

include h

theorem isPlainEntry {c : Category} {n : Node} (hn : n ∈ d.listed c) :
    n.IsPlainEntry listings :=
  ⟨h.isPlain_of_listed hn, h.listed n (List.mem_flatMap.2 ⟨c, Category.mem_all c, hn⟩)⟩

open Outline

theorem lineFeed_not_mem {gap : Category → Nat} {line : List Char}
    (hline : line ∈ d.outlineLines listings gap) : '\n' ∉ line := by
  rw [Document.outlineLines, List.mem_cons] at hline
  rcases hline with rfl | hline
  · exact List.not_mem_append (by decide) h.title
  obtain ⟨c, -, hline⟩ := List.mem_flatMap.1 hline
  rw [sectionLines, List.mem_append, List.mem_cons] at hline
  rcases hline with hline | rfl | hline
  · rw [List.eq_of_mem_replicate hline]
    simp
  · cases c <;> decide
  obtain ⟨n, hn, hline⟩ := List.mem_flatMap.1 hline
  have hentry := h.isPlainEntry hn
  rw [entryLines_eq, List.mem_cons] at hline
  rcases hline with rfl | hline
  · simpa [firstLine] using ⟨hentry.id.not_mem (by decide), hentry.label⟩
  · obtain ⟨l, hl, hline⟩ := List.mem_flatMap.1 hline
    exact lineFeed_not_mem_lines (hentry.listed l hl) hline

/-- The text of an outline has the lines that were written. -/
theorem lines_eq (gap : Category → Nat) (tail : Nat) :
    Text.lines (d.outline listings gap tail) =
      d.outlineLines listings gap ++ List.replicate tail [] := by
  rw [Text.lines, Document.outline, Text.splitOn_join (by simp [Document.outlineLines])]
  intro line hline
  rcases List.mem_append.1 hline with hline | hline
  · exact h.lineFeed_not_mem hline
  · rw [List.eq_of_mem_replicate hline]
    simp

end Document.IsPlainOutline

/-! ## Lists of predecessors -/

namespace Outline

/-- A node has at most one list, that of its predecessors. -/
def predecessorsOnly (style : Node → Option Style) (n : Node) : List Listing :=
  (style n).toList.map (⟨.predecessors, ·⟩)

/-- The lines of a list of predecessors, if there is one. -/
def listLines (ids : List String) : Option Style → List (List Char)
  | none => []
  | some s => Listing.lines ids ⟨.predecessors, s⟩

theorem bodyLines_predecessorsOnly (style : Node → Option Style) (n : Node) :
    bodyLines (predecessorsOnly style) n = listLines n.predecessors (style n) := by
  cases hs : style n <;> simp [bodyLines, predecessorsOnly, listLines, idsUnder, hs]

theorem isPlainOutline_predecessorsOnly {d : Document} (h : d.IsConventional)
    (style : Node → Option Style) : d.IsPlainOutline (predecessorsOnly style) := by
  refine ⟨h, fun n hn l hl => ?_⟩
  obtain ⟨s, -, rfl⟩ := List.mem_map.1 hl
  exact (h.plain n hn).predecessors

theorem lines_outline {d : Document} (gap : Category → Nat) (h : d.IsConventional)
    (style : Node → Option Style) (tail : Nat) :
    Text.lines (d.outline (predecessorsOnly style) gap tail) =
      d.outlineLines (predecessorsOnly style) gap ++ List.replicate tail [] :=
  (isPlainOutline_predecessorsOnly h style).lines_eq gap tail

end Outline

end ThreatTree
