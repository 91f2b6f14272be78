import ThreatTree.Proofs.Location.Index
import ThreatTree.Proofs.Text.LineEnd

/-!
# Carriage returns at line ends

A carriage return at the end of a line is white space after everything that the readers of a line
look for, so they find the same with it and without it: each reader has one lemma here. The scan
for headers, the ends of blocks and the search for references go over the lines with these
readers, so the index of a text does not depend on the kind of its line ends (`build_dosPairs`).
-/

namespace ThreatTree.Location

open Text

/-! ## One line -/

section Line

variable (line : List Char)

theorem trimStart_return :
    trimStart (line ++ ['\r'])
      = if trimStart line = [] then [] else trimStart line ++ ['\r'] := by
  rw [trimStart, List.dropWhile_append, trimStart]
  cases line.dropWhile isBlank <;> rfl

theorem atBlankOrEnd_return : atBlankOrEnd (line ++ ['\r']) = atBlankOrEnd line := by
  cases line <;> rfl

theorem cutColon_return :
    cutColon (line ++ ['\r']) = (cutColon line).map fun p => (p.1, p.2 ++ ['\r']) := by
  induction line with
  | nil => rfl
  | cons c line ih =>
    rw [List.cons_append, cutColon, cutColon]
    by_cases hc : c = ':'
    · simp [hc]
    · simp [hc, ih, Function.comp_def]

theorem topLevelKey?_return : topLevelKey? (line ++ ['\r']) = topLevelKey? line := by
  cases line with
  | nil => rfl
  | cons c line =>
    rw [List.cons_append, topLevelKey?, topLevelKey?, cutColon_return]
    cases cutColon line with
    | none => rfl
    | some p => simp only [Option.map_some, atBlankOrEnd_return]

theorem cutKey_return :
    cutKey (line ++ ['\r']) = (cutKey line).map fun p => (p.1, p.2 ++ ['\r']) := by
  induction line with
  | nil => rfl
  | cons c line ih =>
    rw [List.cons_append, cutKey, cutKey, atBlankOrEnd_return]
    by_cases hc : (c == ':' && atBlankOrEnd line) = true
    · rw [if_pos hc, if_pos hc]
      rfl
    · rw [if_neg hc, if_neg hc, ih]
      simp [Function.comp_def]

/-! ### List items -/

theorem length_sub_trimStart_return (h : trimStart line ≠ []) :
    (line ++ ['\r']).length - (trimStart (line ++ ['\r'])).length
      = line.length - (trimStart line).length := by
  rw [trimStart_return, if_neg h, List.length_append, List.length_append, Nat.add_sub_add_right]

/-- The line starts with white space, a hyphen and a blank. -/
def StartsItem : Prop := ∃ rest, trimStart line = '-' :: ' ' :: rest

variable {line}

theorem trimStart_return_of_item {rest : List Char} (h : trimStart line = '-' :: ' ' :: rest) :
    trimStart (line ++ ['\r']) = '-' :: ' ' :: (rest ++ ['\r']) := by
  rw [trimStart_return, h]
  rfl

theorem StartsItem.of_return (h : StartsItem (line ++ ['\r'])) : StartsItem line := by
  obtain ⟨rest, hrest⟩ := h
  rw [trimStart_return] at hrest
  split at hrest
  · exact absurd hrest (by simp)
  · rcases List.append_eq_cons_iff.1 hrest with ⟨hnil, -⟩ | ⟨body, hbody, hend⟩
    · contradiction
    · rcases List.append_eq_cons_iff.1 hend.symm with ⟨-, hblank⟩ | ⟨body', rfl, -⟩
      · exact absurd hblank (by simp)
      · exact ⟨body', hbody⟩

theorem itemKey?_of_not_startsItem (h : ¬ StartsItem line) : itemKey? line = none := by
  unfold itemKey?
  split
  · next c rest hline => exact absurd ⟨c :: rest, hline⟩ h
  · rfl

theorem itemReference?_of_not_startsItem (id : List Char) (h : ¬ StartsItem line) :
    itemReference? id line = none := by
  unfold itemReference?
  dsimp only
  split
  · next rest hline => exact absurd ⟨rest, hline⟩ h
  · rfl

theorem isOuterItem_of_not_startsItem (indent : Nat) (h : ¬ StartsItem line) :
    isOuterItem indent line = false := by
  have hdrop : dropPiece? ['-', ' '] (trimStart line) = none := by
    rw [Option.eq_none_iff_forall_ne_some]
    intro rest hrest
    exact h ⟨rest, dropPiece?_eq_some_iff.1 hrest⟩
  simp [isOuterItem, hdrop]

variable (line)

theorem itemKey?_return :
    itemKey? (line ++ ['\r'])
      = (itemKey? line).map fun k => { k with after := k.after ++ ['\r'] } := by
  by_cases hitem : StartsItem line
  · obtain ⟨rest, hrest⟩ := hitem
    have hindent := length_sub_trimStart_return line (by simp [hrest])
    rw [trimStart_return_of_item hrest, hrest] at hindent
    unfold itemKey?
    rw [trimStart_return_of_item hrest, hrest]
    cases rest with
    | nil => rfl
    | cons c rest =>
      simp only [List.cons_append] at hindent ⊢
      rw [hindent, cutKey_return]
      split
      · rfl
      · simp only [Option.map_map, Function.comp_def]
  · have hitem' := mt StartsItem.of_return hitem
    rw [itemKey?_of_not_startsItem hitem, itemKey?_of_not_startsItem hitem', Option.map_none]

theorem isOuterItem_return (indent : Nat) :
    isOuterItem indent (line ++ ['\r']) = isOuterItem indent line := by
  by_cases hitem : StartsItem line
  · obtain ⟨rest, hrest⟩ := hitem
    have hindent := length_sub_trimStart_return line (by simp [hrest])
    simp only [isOuterItem, hindent]
    rw [trimStart_return_of_item hrest, hrest]
    rfl
  · have hitem' := mt StartsItem.of_return hitem
    rw [isOuterItem_of_not_startsItem indent hitem, isOuterItem_of_not_startsItem indent hitem']

/-! ### References -/

theorem dropPiece?_return {piece : List Char} (h : '\r' ∉ piece) :
    dropPiece? piece (line ++ ['\r']) = (dropPiece? piece line).map (· ++ ['\r']) := by
  induction piece generalizing line with
  | nil => simp [dropPiece?]
  | cons p piece ih =>
    rw [List.mem_cons, not_or] at h
    cases line with
    | nil => simp [dropPiece?, Ne.symm h.1]
    | cons c line =>
      rw [List.cons_append, dropPiece?, dropPiece?]
      split
      · exact ih line h.2
      · rfl

theorem endsReference_return : endsReference (line ++ ['\r']) = endsReference line := by
  unfold endsReference
  rw [trimStart_return]
  cases trimStart line <;> rfl

theorem startsReference_return {id : List Char} (h : '\r' ∉ id) :
    startsReference id (line ++ ['\r']) = startsReference id line := by
  rw [startsReference, startsReference, dropPiece?_return line h]
  cases dropPiece? id line with
  | none => rfl
  | some after => exact endsReference_return after

theorem startsQuoted_return {id : List Char} (h : '\r' ∉ id) :
    startsQuoted id (line ++ ['\r']) = startsQuoted id line := by
  cases line with
  | nil => rfl
  | cons q rest =>
    rw [List.cons_append, startsQuoted, startsQuoted, dropPiece?_return rest h]
    by_cases hq : isQuote q = true
    · cases dropPiece? id rest with
      | none => rfl
      | some after =>
        cases after with
        | nil =>
          have hne : ('\r' == q) = false := by
            rw [beq_eq_false_iff_ne]
            rintro rfl
            exact absurd hq (by decide)
          simp [hne]
        | cons q' after => simp [endsReference_return]
    · simp [hq]

theorem itemReference?_return {id : List Char} (h : '\r' ∉ id) :
    itemReference? id (line ++ ['\r']) = itemReference? id line := by
  by_cases hitem : StartsItem line
  · obtain ⟨rest, hrest⟩ := hitem
    have hindent := length_sub_trimStart_return line (by simp [hrest])
    simp only [itemReference?, hindent]
    rw [trimStart_return_of_item hrest, hrest]
    simp only [startsQuoted_return rest h, startsReference_return rest h]
  · have hitem' := mt StartsItem.of_return hitem
    rw [itemReference?_of_not_startsItem id hitem, itemReference?_of_not_startsItem id hitem']

/-- A list in brackets is closed in front of the carriage return, or not at all. -/
theorem bracketList?_return : bracketList? (line ++ ['\r']) = bracketList? line := by
  unfold bracketList?
  rw [dropPiece?_return line (by decide)]
  cases dropPiece? "from:".toList line with
  | none => rfl
  | some rest =>
    rw [Option.map_some]
    dsimp only
    rw [trimStart_return]
    cases trimStart rest with
    | nil => rfl
    | cons c inside =>
      rw [if_neg (by simp), List.cons_append]
      by_cases hc : c = '['
      · subst hc
        show (if _ < _ then some _ else none) = if _ < _ then some _ else none
        have hle := (List.takeWhile_sublist (· ≠ ']') (l := inside)).length_le
        have hreturn : ['\r'].takeWhile (· ≠ ']') = ['\r'] := rfl
        rw [List.takeWhile_append, hreturn]
        by_cases hopen : (inside.takeWhile (· ≠ ']')).length = inside.length
        · rw [if_pos hopen, if_neg (Nat.lt_irrefl _), if_neg (by omega)]
        · rw [if_neg hopen, if_pos (by rw [List.length_append]; omega), if_pos (by omega),
            List.length_append, List.length_append, Nat.add_sub_add_right]
      · simp [hc]

theorem findBracketList?_return (prev : Option Char) (column : Nat) :
    findBracketList? prev column (line ++ ['\r']) = findBracketList? prev column line := by
  induction line generalizing prev column with
  | nil =>
    have hnone : bracketList? ['\r'] = none := rfl
    simp [findBracketList?, hnone]
  | cons c line ih =>
    rw [List.cons_append, findBracketList?, findBracketList?, ← List.cons_append,
      bracketList?_return, ih]

theorem bracketReference?_return (prev : Option Char) (column : Nat) (id : List Char) :
    bracketReference? prev column id (line ++ ['\r']) = bracketReference? prev column id line := by
  rw [bracketReference?, bracketReference?, findBracketList?_return]

theorem lineReference?_return {id : List Char} (h : '\r' ∉ id) (i : Nat) :
    lineReference? id i (line ++ ['\r']) = lineReference? id i line := by
  rw [lineReference?, lineReference?, itemReference?_return line h, bracketReference?_return]

theorem recordReference?_return (id : List Char) (h : Header) :
    recordReference? id h (line ++ ['\r']) = recordReference? id h line := by
  unfold recordReference?
  rw [itemKey?_return]
  cases itemKey? line with
  | none => rfl
  | some k =>
    rw [Option.map_some]
    dsimp only
    rw [trimStart_return, List.length_append, List.length_append, Nat.add_sub_add_right,
      bracketReference?_return]
    cases trimStart k.after with
    | nil => rfl
    | cons c rest =>
      rw [if_neg (by simp), List.cons_append]
      by_cases hc : c = '\x7b'
      · subst hc
        rfl
      · simp [hc]

end Line

/-! ## Lines of a text -/

theorem Scan.header?_return (s : Scan) (i : Nat) (line : List Char) :
    s.header? i (line ++ ['\r']) = s.header? i line := by
  rw [header?, header?, topLevelKey?_return, itemKey?_return]
  cases topLevelKey? line with
  | some key => rfl
  | none =>
    cases s.current with
    | none => rfl
    | some category => cases itemKey? line <;> rfl

theorem Scan.next_return (s : Scan) (line : List Char) :
    s.next (line ++ ['\r']) = s.next line := by
  rw [next, next, topLevelKey?_return, itemKey?_return]
  cases topLevelKey? line with
  | some key => rfl
  | none =>
    cases s.current with
    | none => rfl
    | some category => cases itemKey? line <;> rfl

section Lines

variable {lines lines' : List (List Char)} (h : List.Forall₂ MayReturn lines lines')
include h

theorem Scan.headers_mayReturn (s : Scan) (i : Nat) : s.headers i lines' = s.headers i lines := by
  induction h generalizing s i with
  | nil => rfl
  | cons hline hrest ih =>
    rw [headers_cons, headers_cons, hline.congr (s.header?_return i _),
      hline.congr (s.next_return _), ih]

theorem blockLength_mayReturn (isHeader : Nat → Bool) (indent i : Nat) :
    blockLength isHeader indent i lines' = blockLength isHeader indent i lines := by
  induction h generalizing i with
  | nil => rfl
  | cons hline hrest ih =>
    have hkey := hline.congr (f := isTopLevelKey)
      (by rw [isTopLevelKey, isTopLevelKey, topLevelKey?_return])
    rw [blockLength, blockLength, hkey, hline.congr (isOuterItem_return _ indent), ih]

theorem blockEnd_mayReturn (hs : List Header) (header : Header) :
    blockEnd lines' hs header = blockEnd lines hs header := by
  rw [blockEnd, blockEnd, blockLength_mayReturn (List.forall₂_drop _ h)]

theorem firstReference?_mayReturn {id : List Char} (hid : '\r' ∉ id) (i : Nat) :
    firstReference? id i lines' = firstReference? id i lines := by
  induction h generalizing i with
  | nil => rfl
  | cons hline hrest ih =>
    rw [firstReference?, firstReference?, hline.congr (lineReference?_return _ hid i), ih]

theorem reference?_mayReturn {id : List Char} (hid : '\r' ∉ id) (hs : List Header)
    (header : Header) : reference? lines' hs header id = reference? lines hs header id := by
  have hrecord : (lines'[header.line]?).bind (recordReference? id header)
      = (lines[header.line]?).bind (recordReference? id header) := by
    generalize header.line = i
    induction h generalizing i with
    | nil => rfl
    | cons hline hrest ih =>
      cases i with
      | zero => exact hline.congr (recordReference?_return _ id header)
      | succ i => simpa using ih i
  have hblock := List.forall₂_drop (header.line + 1)
    (List.forall₂_take (blockEnd lines hs header) h)
  rw [reference?, reference?, hrecord, blockEnd_mayReturn h, firstReference?_mayReturn hblock hid]

end Lines

/-! ## The index -/

/-- The index of a text does not depend on the kind of its line ends. -/
theorem Index.build_dosPairs (text : List Char) {d : Document}
    (hd : ∀ n ∈ d.nodes, ∀ p ∈ n.predecessors, '\r' ∉ p.toList) :
    build (dosPairs text) d = build text d := by
  have hlines := forall₂_lines_dosPairs text
  have hheaders : headers (lines (dosPairs text)) = headers (lines text) :=
    Scan.start.headers_mayReturn hlines 0
  have hedges : ∀ e ∈ documentEdges d,
      (edgeSpan? (lines (dosPairs text)) (headers (lines text)) e).map (e, ·)
        = (edgeSpan? (lines text) (headers (lines text)) e).map (e, ·) := by
    rintro ⟨source, target⟩ he
    obtain ⟨n, hn, -, hsource⟩ := mem_documentEdges.1 he
    simp only [edgeSpan?, reference?_mayReturn hlines (hd n hn source hsource)]
  simp only [build, hheaders, blockEnd_mayReturn hlines, List.filterMap_congr hedges]

end ThreatTree.Location
