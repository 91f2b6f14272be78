import ThreatTree.Document.OfValue
import ThreatTree.Proofs.Graph.Declared
import ThreatTree.Proofs.Location.HeaderRule
import ThreatTree.Proofs.Location.Partition
import ThreatTree.Proofs.Location.Selection

/-!
# The section that a declaration is found in

A node is located at the first header with its id, and a header stands in one section only
(`isInSection_iff`). The scan takes the first list item with a key behind one blank for the first
entry of its section. If the first list item at all is no such item, a labelled reference may be
taken for an entry, and for the declaration of the node that is referred to if no header with its id
stands in front of it (`Index.isInSection_iff_earlier`, `Index.not_isInSection_of_wide_entry`).
-/

namespace ThreatTree

namespace Location

/-- The line stands under the key of the section: the nearest key at the left margin above it names
the section. -/
def IsInSection (lines : List (List Char)) (c : Category) (i : Nat) : Prop :=
  ∃ k key, IsUnderKey lines k i key ∧ sectionOf? key = some c

theorem isInSection_iff {lines : List (List Char)} {h : Header} (hh : IsHeader lines h)
    {c : Category} : IsInSection lines c h.line ↔ c = h.category := by
  obtain ⟨k, key, -, hunder, hsection, -⟩ := hh
  constructor
  · intro hin
    obtain ⟨k', key', hunder', hsection'⟩ := hin
    obtain ⟨rfl, rfl⟩ := hunder.unique hunder'
    exact Option.some.inj (hsection'.symm.trans hsection)
  · intro hc
    exact ⟨k, key, hunder, hc ▸ hsection⟩

/-- The line is a list item, of any form: white space of a length, and a hyphen that ends a
word. -/
def IsListItem (line : List Char) (indent : Nat) : Prop :=
  ∃ margin rest : List Char, line = margin ++ '-' :: rest ∧ margin.length = indent
    ∧ (∀ c ∈ margin, Text.isBlank c = true) ∧ atBlankOrEnd rest = true

theorem IsItem.isListItem {line id : List Char} {indent : Nat} (h : IsItem line indent id) :
    IsListItem line indent := by
  obtain ⟨margin, after, hline, hlength, hmargin, -⟩ := h
  exact ⟨margin, ' ' :: (id ++ ':' :: after), by simp [hline], hlength, hmargin, rfl⟩

/-- Line `j` is the first list item, of any form, after line `k`. -/
def IsFirstListItem (lines : List (List Char)) (k j : Nat) : Prop :=
  k < j ∧ ∀ m line n, k < m → m < j → lines[m]? = some line → ¬ IsListItem line n

/-- Where the first list item has a key, entries are indented as it is. -/
theorem IsHeader.indent_eq {lines : List (List Char)} {h : Header} (hh : IsHeader lines h)
    {k j n : Nat} {key line id : List Char} (hunder : IsUnderKey lines k h.line key)
    (hfirst : IsFirstListItem lines k j) (hline : lines[j]? = some line)
    (hitem : IsItem line n id) : h.indent = n := by
  obtain ⟨k', key', -, hunder', -, -, -, j', hfirst'⟩ := hh
  obtain ⟨rfl, rfl⟩ := hunder.unique hunder'
  obtain ⟨hlt, hnone⟩ := hfirst
  have hkeyed : IsFirstItem lines k j n := by
    refine ⟨hlt, ⟨line, id, hline, hitem⟩, ?_⟩
    intro m line' n' id' hm hmj hline' hitem'
    exact hnone m line' n' hm hmj hline' hitem'.isListItem
  exact hfirst'.unique hkeyed

namespace Index

/-- A located node stands at the first header with its id. -/
theorem exists_first_header {text : List Char} {d : Document} {id : String} {s : Span}
    (hs : (build text d).node? id = some s) :
    ∃ h, IsHeader (Text.lines text) h ∧ h.id = id ∧ s = declaration h
      ∧ ∀ h', IsHeader (Text.lines text) h' → h'.id = id → h' = h ∨ h.line < h'.line := by
  obtain ⟨-, h, hh, rfl⟩ := mem_nodes_build.1 (mem_nodes_build_iff.2 hs)
  obtain ⟨hmem, hid, hfirst⟩ := header?_first hh
  refine ⟨h, mem_headers_iff.1 hmem, hid, rfl, ?_⟩
  intro h' hheader' hid'
  have hmem' := mem_headers_iff.2 hheader'
  rcases Nat.lt_or_eq_of_le (hfirst h' hmem' hid') with hlt | heq
  · exact .inr hlt
  · exact .inl (eq_of_line_eq hmem' hmem heq.symm)

/-- **Which section the declaration of a located node is found in**, for every text and document.
It is found in one section. This is a given one, such as that of the category of the node, exactly
if each header with the id in another section has one in the given section in front of it. The
declaration is indented as the first list item of its section if that has a key behind one
blank. -/
theorem isInSection_iff_earlier (text : List Char) (d : Document) {id : String} {s : Span}
    (hs : (build text d).node? id = some s) :
    let lines := Text.lines text
    (∃ c, ∀ c', IsInSection lines c' s.line ↔ c' = c)
      ∧ (∀ c, IsInSection lines c s.line ↔
        ∀ h, IsHeader lines h → h.id = id → h.category ≠ c →
          ∃ h', IsHeader lines h' ∧ h'.id = id ∧ h'.category = c ∧ h'.line < h.line)
      ∧ ∀ k key j line n id', IsUnderKey lines k s.line key → IsFirstListItem lines k j →
        lines[j]? = some line → IsItem line n id' → s.column = n := by
  intro lines
  obtain ⟨first, hheader, hid, rfl, hfirst⟩ := exists_first_header hs
  have hsection {c : Category} : IsInSection lines c first.line ↔ c = first.category :=
    isInSection_iff hheader
  refine ⟨⟨first.category, fun c' => hsection⟩, ?_, ?_⟩
  · intro c
    show IsInSection lines c first.line ↔ _
    rw [hsection]
    constructor
    · intro hc h hheader' hid' hne
      rcases hfirst h hheader' hid' with rfl | hlt
      · exact absurd hc.symm hne
      · exact ⟨first, hheader, hid, hc.symm, hlt⟩
    · intro hearlier
      by_contra hne
      obtain ⟨h', hheader', hid', -, hlt⟩ := hearlier first hheader hid (Ne.symm hne)
      rcases hfirst h' hheader' hid' with rfl | hlt'
      · exact Nat.lt_irrefl _ hlt
      · exact Nat.lt_asymm hlt hlt'
  · intro k key j line n id' hunder hfirstItem hline hitem
    exact hheader.indent_eq hunder hfirstItem hline hitem

/-- A fact, and an attack that follows from it by an edge with a label. -/
def scanning : Document where
  title := "Attack Tree"
  theme := none
  facts := [⟨"net", "Network", .fact, [], [], [], rfl⟩]
  attacks := [⟨"scan", "Scan", .attack, ["net"], [("net", "open port")], [], rfl⟩]
  mitigations := []
  goals := []

/-- The labelled reference is a header, but the declaration stands in front of it. -/
theorem isInSection_of_earlier :
    let text := "facts:\n- net: Network\nattacks:\n-  scan: Scan\n   from:\n   - net: open port\n"
    let lines := Text.lines text.toList
    Document.ofText text = .ok scanning
      ∧ (build text.toList scanning).node? "net" = some ⟨1, 0, 6⟩
      ∧ IsHeader lines ⟨5, 3, "net", .attack⟩ ∧ IsInSection lines .fact 1 := by
  intro text lines
  have hs : (build text.toList scanning).node? "net" = some ⟨1, 0, 6⟩ := by decide +kernel
  have hearlier : ∀ h ∈ headers lines, h.id = "net" → h.category ≠ .fact → 1 < h.line := by
    decide +kernel
  have hfact : IsHeader lines ⟨1, 0, "net", .fact⟩ := mem_headers_iff.1 (by decide +kernel)
  have hin := (isInSection_iff_earlier text.toList scanning hs).2.1 .fact
  refine ⟨by decide +kernel, hs, mem_headers_iff.1 (by decide +kernel), hin.2 ?_⟩
  intro h hheader hid hne
  exact ⟨_, hfact, rfl, rfl, hearlier h (mem_headers_iff.2 hheader) hid hne⟩

/-- With the sections the other way round, the labelled reference is taken for the declaration. -/
theorem not_isInSection_of_wide_entry :
    let text := "attacks:\n-  scan: Scan\n   from:\n   - net: open port\nfacts:\n- net: Network\n"
    let lines := Text.lines text.toList
    Document.ofText text = .ok scanning ∧ (∃ g, scanning.compile .builtin none = .ok g)
      ∧ (build text.toList scanning).node? "net" = some ⟨3, 3, 6⟩
      ∧ ¬ IsInSection lines .fact 3 := by
  intro text lines
  have hcompile : scanning.compile .builtin none
      = .ok (Graph.draw "Attack Tree" (Registry.builtin.resolve none) scanning.nodes) :=
    Document.compile_eq_ok_iff.2 ⟨⟨by decide, by unfold Graph.Refers; decide⟩, rfl⟩
  have hheader : IsHeader lines ⟨3, 3, "net", .attack⟩ := mem_headers_iff.1 (by decide +kernel)
  refine ⟨by decide +kernel, ⟨_, hcompile⟩, by decide +kernel, ?_⟩
  rw [isInSection_iff hheader]
  decide

end Index

end Location

end ThreatTree
