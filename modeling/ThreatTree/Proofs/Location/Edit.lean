import ThreatTree.Proofs.Location.HeaderRule
import ThreatTree.Proofs.Location.Partition

/-!
# Edits inside a block

Behind a header, the scan for headers has the section and the indent of the header in mind
(`after_take_of_mem_headers`), and it passes over every line that can stand in the block of the
header (`IsBodyLine`). So the lines of a block can be replaced by as many others, and the headers
stay (`IsBlockEdit.headers_eq`). Other blocks have no line in common with the edited one, so they
end where they did (`IsBlockEdit.blockEnd_eq`) and refer to what they did
(`IsBlockEdit.reference?_eq`).

The main statement, `Index.build_edited`, says that an edit inside the block of one node moves
nothing else.
-/

namespace ThreatTree.Location

/-! ## Lines of a block -/

/-- A line that can stand in a block, behind a header with the given indent: it is no key at the
left margin, no list item with a key at the same indent, and no list item that is indented less. -/
structure IsBodyLine (indent : Nat) (line : List Char) : Prop where
  isTopLevelKey_eq : isTopLevelKey line = false
  indent_ne : ∀ k, itemKey? line = some k → k.indent ≠ indent
  isOuterItem_eq : isOuterItem indent line = false

/-- The lines from `first + 1` up to `last` are replaced by as many others. A new line is one of
the lines that stood there, or one that can stand in a block with the given indent. -/
structure IsBlockEdit (lines lines' : List (List Char)) (indent first last : Nat) : Prop where
  length_eq : lines'.length = lines.length
  take_eq : lines'.take (first + 1) = lines.take (first + 1)
  drop_eq : lines'.drop last = lines.drop last
  isBodyLine : ∀ line ∈ (lines'.take last).drop (first + 1),
    line ∈ (lines.take last).drop (first + 1) ∨ IsBodyLine indent line

instance (indent : Nat) (line : List Char) : Decidable (IsBodyLine indent line) :=
  decidable_of_iff (isTopLevelKey line = false ∧ (∀ k ∈ itemKey? line, k.indent ≠ indent)
      ∧ isOuterItem indent line = false)
    ⟨fun h => ⟨h.1, h.2.1, h.2.2⟩, fun h => ⟨h.1, h.2, h.3⟩⟩

variable {lines lines' : List (List Char)} {h k : Header} {last last' : Nat}

/-- Behind a header, a list item with a key at the same indent is a header of the same section, if
no key at the left margin comes between. -/
theorem IsHeader.of_item (hh : IsHeader lines h) {i : Nat} (hi : h.line < i)
    (hno : ∀ j, h.line < j → j ≤ i → (lines[j]?).bind topLevelKey? = none) {line : List Char}
    (hline : lines[i]? = some line) {item : ItemKey} (hitem : itemKey? line = some item)
    (hindent : item.indent = h.indent) :
    IsHeader lines ⟨i, h.indent, String.ofList item.id, h.category⟩ := by
  obtain ⟨m, key, -, ⟨hlt, hkey, hnone⟩, hsection, -, -, hfirst⟩ := hh
  have hunder : IsUnderKey lines m i key := by
    refine ⟨Nat.lt_trans hlt hi, hkey, ?_⟩
    intro j hj hji
    rcases Nat.lt_or_ge h.line j with hbehind | hle
    · exact hno j hbehind hji
    · exact hnone j hj hle
  refine ⟨m, key, line, hunder, hsection, hline, ?_, hfirst⟩
  rw [String.toList_ofList]
  exact (isItem_iff_of_itemKey? hitem).2 ⟨hindent, rfl⟩

/-- What stands in a block can stand there. -/
theorem IsBlock.isBodyLine (hb : IsBlock lines h last) (hh : h ∈ headers lines) {i : Nat}
    {line : List Char} (hi : h.line < i) (hlast : i < last) (hline : lines[i]? = some line) :
    IsBodyLine h.indent line := by
  constructor
  case isTopLevelKey_eq => exact hb.isTopLevelKey_eq i line hi hlast hline
  case isOuterItem_eq => exact hb.isOuterItem_eq i line hi hlast hline
  case indent_ne =>
    intro item hitem hindent
    have hno (j : Nat) (hj : h.line < j) (hji : j ≤ i) : (lines[j]?).bind topLevelKey? = none := by
      cases hget : lines[j]? with
      | none => rfl
      | some l =>
        have hkey := hb.isTopLevelKey_eq j l hj (Nat.lt_of_le_of_lt hji hlast) hget
        simpa [isTopLevelKey] using hkey
    have hheader := (mem_headers_iff.1 hh).of_item hi hno hline hitem hindent
    have hle := hb.le_line _ (mem_headers_iff.2 hheader) hi
    exact absurd hlast (Nat.not_lt.2 hle)

theorem IsBlock.isBodyLine_of_mem (hb : IsBlock lines h last) (hh : h ∈ headers lines)
    {line : List Char} (hline : line ∈ (lines.take last).drop (h.line + 1)) :
    IsBodyLine h.indent line := by
  obtain ⟨j, hj⟩ := List.mem_iff_getElem?.1 hline
  rw [List.getElem?_drop, List.getElem?_take] at hj
  split at hj
  · next hlast => exact hb.isBodyLine hh (by omega) hlast hj
  · exact absurd hj (by simp)

/-- A block ends in one place. -/
theorem IsBlock.unique (hb : IsBlock lines h last) (hb' : IsBlock lines h last') :
    last = last' := by
  -- A block that goes on behind the end of another would have the line that ends it.
  have hle {a b : Nat} (ha : IsBlock lines h a) (hb : IsBlock lines h b) : b ≤ a := by
    refine Nat.not_lt.1 fun hlt => ?_
    obtain ⟨line, hget⟩ : ∃ line, lines[a]? = some line :=
      ⟨_, List.getElem?_eq_getElem (Nat.lt_of_lt_of_le hlt hb.le_length)⟩
    rcases ha.ends _ hget with hheader | hkey | hitem
    · obtain ⟨k, hk, hline⟩ := hheader
      have hle := hb.le_line k hk (hline ▸ ha.line_lt)
      omega
    · rw [hb.isTopLevelKey_eq a _ ha.line_lt hlt hget] at hkey
      exact absurd hkey (by simp)
    · rw [hb.isOuterItem_eq a _ ha.line_lt hlt hget] at hitem
      exact absurd hitem (by simp)
  exact Nat.le_antisymm (hle hb' hb) (hle hb hb')

/-- No block ends inside another one. -/
theorem IsBlock.le_or_le (hb : IsBlock lines h last) (hb' : IsBlock lines k last')
    (hh : h ∈ headers lines) (hk : k ∈ headers lines) : last' ≤ h.line ∨ last ≤ last' := by
  rcases Nat.lt_trichotomy k.line h.line with hlt | heq | hlt
  · exact .inl (hb'.le_line h hh hlt)
  · obtain rfl := eq_of_line_eq hk hh heq
    exact .inr (Nat.le_of_eq (hb.unique hb'))
  · exact .inr (Nat.le_trans (hb.le_line k hk hlt) (Nat.le_of_lt hb'.line_lt))

/-! ## The scan -/

namespace Scan

/-- Behind a header, the scan has its section and its indent in mind. -/
theorem next_of_header? {s : Scan} {i : Nat} {line : List Char} (hh : s.header? i line = some h) :
    s.next line = ⟨some h.category, some h.indent⟩ := by
  unfold header? at hh
  unfold next
  split at hh
  · exact absurd hh (by simp)
  · split at hh
    · split at hh
      · next hindent =>
        obtain rfl := Option.some.inj hh
        simp only [← hindent]
      · exact absurd hh (by simp)
    · exact absurd hh (by simp)

theorem after_take_of_mem_headers {s : Scan} {i : Nat} (hh : h ∈ s.headers i lines) :
    s.after (lines.take (h.line + 1 - i)) = ⟨some h.category, some h.indent⟩ := by
  induction lines generalizing s i with
  | nil => simp at hh
  | cons line rest ih =>
    rw [headers_cons, List.mem_append, Option.mem_toList] at hh
    rcases hh with hh | hh
    · rw [(eq_of_header? hh).1, Nat.add_sub_cancel_left]
      exact next_of_header? hh
    · have hle := le_line_of_mem_headers hh
      have hsub : h.line + 1 - i = h.line + 1 - (i + 1) + 1 := by omega
      rw [hsub, List.take_succ_cons, after_cons]
      exact ih hh

/-- Behind a header, the scan passes over every line that can stand in its block. -/
theorem passes_of_isBodyLine {indent : Nat} {line : List Char} (h : IsBodyLine indent line)
    (c : Category) : (⟨some c, some indent⟩ : Scan).Passes line := by
  have hkey : topLevelKey? line = none := by simpa [isTopLevelKey] using h.isTopLevelKey_eq
  constructor
  case header?_eq =>
    intro i
    unfold header?
    rw [hkey]
    cases hitem : itemKey? line with
    | none => rfl
    | some item => exact if_neg (h.indent_ne item hitem)
  case next_eq =>
    unfold next
    rw [hkey]
    cases itemKey? line <;> rfl

/-- Lines that are passed over can be replaced by as many others. -/
theorem headers_replace {s : Scan} {front xs ys : List (List Char)}
    (hlength : ys.length = xs.length) (hxs : ∀ line ∈ xs, (s.after front).Passes line)
    (hys : ∀ line ∈ ys, (s.after front).Passes line) (i : Nat) (back : List (List Char)) :
    s.headers i (front ++ (ys ++ back)) = s.headers i (front ++ (xs ++ back)) := by
  rw [headers_append, headers_append _ _ front, headers_append _ _ ys, headers_append _ _ xs,
    headers_of_passes hxs, headers_of_passes hys, after_of_passes hxs, after_of_passes hys,
    hlength]

end Scan

/-! ## An edit -/

namespace IsBlockEdit

variable (he : IsBlockEdit lines lines' h.indent h.line last) (hb : IsBlock lines h last)
  (hh : h ∈ headers lines)

include he

/-- No line is edited up to the header, and none behind the block. -/
theorem getElem?_eq {i : Nat} (hi : i ≤ h.line ∨ last ≤ i) : lines'[i]? = lines[i]? := by
  rcases hi with hi | hi
  · rw [← List.getElem?_take_of_lt (Nat.lt_succ_of_le hi), he.take_eq,
      List.getElem?_take_of_lt (Nat.lt_succ_of_le hi)]
  · obtain ⟨j, rfl⟩ := Nat.exists_eq_add_of_le hi
    rw [← List.getElem?_drop, he.drop_eq, List.getElem?_drop]

include hb hh

/-- What stands in the block after the edit can stand there. -/
theorem isBodyLine_of_mem {line : List Char}
    (hline : line ∈ (lines'.take last).drop (h.line + 1)) : IsBodyLine h.indent line := by
  rcases he.isBodyLine line hline with hold | hnew
  · exact hb.isBodyLine_of_mem hh hold
  · exact hnew

theorem isBodyLine_of_getElem? {i : Nat} {line : List Char} (hi : h.line < i) (hlast : i < last)
    (hline : lines'[i]? = some line) : IsBodyLine h.indent line := by
  obtain ⟨j, rfl⟩ := Nat.exists_eq_add_of_le hi
  apply he.isBodyLine_of_mem hb hh
  apply List.mem_of_getElem? (i := j)
  rw [List.getElem?_drop, List.getElem?_take_of_lt hlast]
  exact hline

/-- The edit leaves all headers. -/
theorem headers_eq : headers lines' = headers lines := by
  have hparts (ls : List (List Char)) : ls
      = ls.take (h.line + 1) ++ ((ls.take last).drop (h.line + 1) ++ ls.drop last) := by
    have htake : (ls.take last).take (h.line + 1) = ls.take (h.line + 1) := by
      rw [List.take_take, Nat.min_eq_left hb.line_lt]
    rw [← htake, ← List.append_assoc, List.take_append_drop, List.take_append_drop]
  have hstart : h ∈ Scan.start.headers 0 lines := hh
  have hafter := Scan.after_take_of_mem_headers hstart
  rw [Nat.sub_zero] at hafter
  have hlength : ((lines'.take last).drop (h.line + 1)).length
      = ((lines.take last).drop (h.line + 1)).length := by
    rw [List.length_drop, List.length_drop, List.length_take, List.length_take, he.length_eq]
  have hpasses (line : List Char) (hline : IsBodyLine h.indent line) :
      (Scan.start.after (lines.take (h.line + 1))).Passes line := by
    rw [hafter]
    exact Scan.passes_of_isBodyLine hline _
  rw [Location.headers_eq, Location.headers_eq, hparts lines', hparts lines, he.take_eq,
    he.drop_eq]
  apply Scan.headers_replace hlength
  · intro line hline
    exact hpasses line (hb.isBodyLine_of_mem hh hline)
  · intro line hline
    exact hpasses line (he.isBodyLine_of_mem hb hh hline)

/-- What stands in any block after the edit can stand there: only the edited one has new lines. -/
theorem isBodyLine_of_isBlock (hk : k ∈ headers lines) (hb' : IsBlock lines k last') {i : Nat}
    {line : List Char} (hi : k.line < i) (hlast : i < last') (hline : lines'[i]? = some line) :
    IsBodyLine k.indent line := by
  by_cases hin : h.line < i ∧ i < last
  · have hsame : h.line = k.line := hb.disjoint hb' hh hk (i := i) (by omega) (by omega)
    obtain rfl := eq_of_line_eq hh hk hsame
    exact he.isBodyLine_of_getElem? hb hh hi hin.2 hline
  · have hold : lines'[i]? = lines[i]? := he.getElem?_eq (by omega)
    exact hb'.isBodyLine hk hi hlast (hold ▸ hline)

/-- The edit leaves the extent of every block. -/
theorem isBlock (hk : k ∈ headers lines) (hb' : IsBlock lines k last') :
    IsBlock lines' k last' := by
  have hheaders := he.headers_eq hb hh
  constructor
  case line_lt => exact hb'.line_lt
  case le_length => exact he.length_eq ▸ hb'.le_length
  case le_line => exact hheaders ▸ hb'.le_line
  case isTopLevelKey_eq =>
    intro i line hi hlast hline
    exact (he.isBodyLine_of_isBlock hb hh hk hb' hi hlast hline).isTopLevelKey_eq
  case isOuterItem_eq =>
    intro i line hi hlast hline
    exact (he.isBodyLine_of_isBlock hb hh hk hb' hi hlast hline).isOuterItem_eq
  case ends =>
    rw [hheaders, he.getElem?_eq (hb.le_or_le hb' hh hk)]
    exact hb'.ends

theorem blockEnd_eq (hk : k ∈ headers lines) :
    blockEnd lines' (headers lines') k = blockEnd lines (headers lines) k := by
  have hk' : k ∈ headers lines' := he.headers_eq hb hh ▸ hk
  exact (isBlock_blockEnd hk').unique (he.isBlock hb hh hk (isBlock_blockEnd hk))

/-- The edit leaves the references of other entries. -/
theorem reference?_eq (hk : k ∈ headers lines) (hne : k ≠ h) (id : List Char) :
    reference? lines' (headers lines') k id = reference? lines (headers lines) k id := by
  have hb' := isBlock_blockEnd hk
  have hline (i : Nat) (hi : k.line ≤ i) (hlast : i < blockEnd lines (headers lines) k) :
      lines'[i]? = lines[i]? := by
    apply he.getElem?_eq
    by_contra hin
    have hsame := hb.disjoint hb' hh hk (i := i) (by omega) ⟨hi, hlast⟩
    exact hne (eq_of_line_eq hk hh hsame.symm)
  have hbody : (lines'.take (blockEnd lines (headers lines) k)).drop (k.line + 1)
      = (lines.take (blockEnd lines (headers lines) k)).drop (k.line + 1) := by
    apply List.ext_getElem?
    intro j
    rw [List.getElem?_drop, List.getElem?_drop, List.getElem?_take, List.getElem?_take]
    split
    · next hlast => exact hline _ (by omega) hlast
    · rfl
  rw [reference?, reference?, he.blockEnd_eq hb hh hk, hline k.line (Nat.le_refl _) hb'.line_lt,
    hbody]

end IsBlockEdit

/-! ## The index -/

namespace Index

/-- **Editing one entry does not move the others.** Let the lines behind the header of a located
node, up to the end of its block, be replaced by as many others, none of them a key at the left
margin, a list item with a key at the indent of the header, or a list item that is indented less.
Then all headers, the spans of all nodes and all blocks stay, and so do the spans of the edges
into other nodes. -/
theorem build_edited {text text' : List Char} {d : Document} {id : String} {s : Span}
    {first last : Nat} (hnode : (build text d).node? id = some s)
    (hblock : (id, first, last) ∈ (build text d).blocks)
    (hedit : IsBlockEdit (Text.lines text) (Text.lines text') s.column first last) :
    headers (Text.lines text') = headers (Text.lines text)
      ∧ (build text' d).nodes = (build text d).nodes
      ∧ (build text' d).blocks = (build text d).blocks
      ∧ ∀ source target, target ≠ id →
        (build text' d).edge? source target = (build text d).edge? source target := by
  obtain ⟨hid, h, hh, rfl, rfl⟩ := mem_blocks_build.1 hblock
  rw [node?_build, if_pos hid, hh] at hnode
  obtain rfl : declaration h = s := by simpa using hnode
  obtain ⟨hmem, rfl, -⟩ := header?_first hh
  have hb := isBlock_blockEnd hmem
  have hedit : IsBlockEdit (Text.lines text) (Text.lines text') h.indent h.line _ := hedit
  have hheaders := hedit.headers_eq hb hmem
  refine ⟨hheaders, ?nodes, ?blocks, ?edges⟩
  case nodes => rw [nodes_build, nodes_build, hheaders]
  case blocks =>
    simp only [build]
    apply List.filterMap_congr
    intro id' _
    rw [hheaders]
    cases hk : header? (headers (Text.lines text)) id' with
    | none => rfl
    | some k =>
      have hend := hedit.blockEnd_eq hb hmem (header?_first hk).1
      rw [hheaders] at hend
      rw [Option.map_some, Option.map_some, hend]
  case edges =>
    intro source target hne
    rw [edge?_build, edge?_build, edgeSpan?, edgeSpan?, hheaders]
    cases hk : header? (headers (Text.lines text)) target with
    | none => rfl
    | some k =>
      obtain ⟨hkmem, hkid, -⟩ := header?_first hk
      have hkne : k ≠ h := fun heq => hne (heq ▸ hkid.symm)
      have href := hedit.reference?_eq hb hmem hkmem hkne source.toList
      rw [hheaders] at href
      rw [Option.bind_some, Option.bind_some, href]

/-- Two entries, each with predecessors. -/
def editable : Document where
  title := "Attack Tree"
  theme := none
  facts := [⟨"hill", "A", .fact, [], [], [], rfl⟩]
  attacks := [⟨"moat", "B", .attack, ["hill"], [], [], rfl⟩,
    ⟨"wall", "C", .attack, ["hill", "moat"], [], [], rfl⟩]
  mitigations := []
  goals := []

/-- A reference is dropped from one entry, and deeper items with keys are put in its place. -/
theorem build_edited_between_entries :
    let text := "facts:\n- hill: A\nattacks:\n- moat: B\n  from:\n  - hill\n- wall: C\n"
      ++ "  from: [hill, moat]\n"
    let text' := "facts:\n- hill: A\nattacks:\n- moat: B\n  - wall: D\n   - hill: E\n- wall: C\n"
      ++ "  from: [hill, moat]\n"
    (build text.toList editable).node? "moat" = some ⟨3, 0, 7⟩
      ∧ ("moat", 3, 6) ∈ (build text.toList editable).blocks
      ∧ IsBlockEdit (Text.lines text.toList) (Text.lines text'.toList) 0 3 6
      ∧ (build text'.toList editable).node? "wall" = some ⟨6, 0, 7⟩
      ∧ (build text'.toList editable).edge? "moat" "wall" = some ⟨7, 15, 4⟩ := by
  intro text text'
  have hnode : (build text.toList editable).node? "moat" = some ⟨3, 0, 7⟩ := by decide +kernel
  have hblock : ("moat", 3, 6) ∈ (build text.toList editable).blocks := by decide +kernel
  have hedit : IsBlockEdit (Text.lines text.toList) (Text.lines text'.toList) 0 3 6 :=
    ⟨by decide +kernel, by decide +kernel, by decide +kernel, by decide +kernel⟩
  obtain ⟨-, hnodes, -, hedges⟩ := build_edited hnode hblock hedit
  refine ⟨hnode, hblock, hedit, ?_, ?_⟩
  · rw [node?, hnodes]
    decide +kernel
  · rw [hedges "moat" "wall" (by decide)]
    decide +kernel

end Index

end ThreatTree.Location
