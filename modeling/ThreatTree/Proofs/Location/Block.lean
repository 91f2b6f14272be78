import ThreatTree.Location.Index
import ThreatTree.Proofs.Location.Header

/-!
# Blocks of inert lines

A line is inert (`IsInert`) if it is neither a key at the left margin nor a list item with a
key. The scan for headers passes over inert lines with the same in mind, and at the left
margin, a block goes on as long as lines are inert (`block_eq`).
-/

namespace ThreatTree.Location

/-- The line is neither a key at the left margin nor a list item with a key. -/
structure IsInert (line : List Char) : Prop where
  topLevelKey : topLevelKey? line = none
  itemKey : itemKey? line = none

theorem isInert_nil : IsInert [] := ⟨rfl, rfl⟩

theorem isInert_empty (k : Nat) : ∀ line ∈ List.replicate k [], IsInert line := by
  intro line hline
  rw [List.eq_of_mem_replicate hline]
  exact isInert_nil

/-! ## The scan -/

namespace Scan

theorem passes_of_isInert {line : List Char} (h : IsInert line) (s : Scan) : s.Passes line := by
  constructor
  case header?_eq =>
    intro i
    rw [header?, h.topLevelKey, h.itemKey]
    cases s.current <;> rfl
  case next_eq =>
    rw [next, h.topLevelKey, h.itemKey]
    cases s.current <;> rfl

theorem headers_of_isInert {lines : List (List Char)} (h : ∀ line ∈ lines, IsInert line)
    (s : Scan) (i : Nat) : s.headers i lines = [] :=
  headers_of_passes (fun line hline => passes_of_isInert (h line hline) s) i

theorem after_of_isInert {lines : List (List Char)} (h : ∀ line ∈ lines, IsInert line)
    (s : Scan) : s.after lines = s :=
  after_of_passes fun line hline => passes_of_isInert (h line hline) s

end Scan

/-! ## The end of a block -/

/-- A block ends in front of the first header or key at the left margin, if no list item can
be indented less. -/
theorem blockLength_eq {isHeader : Nat → Bool} {i : Nat} {xs ys : List (List Char)}
    (hxs : ∀ j x, xs[j]? = some x → isHeader (i + j) = false ∧ isTopLevelKey x = false)
    (hys : ∀ y, ys.head? = some y → isHeader (i + xs.length) = true ∨ isTopLevelKey y = true) :
    blockLength isHeader 0 i (xs ++ ys) = xs.length := by
  induction xs generalizing i with
  | nil =>
    cases ys with
    | nil => rfl
    | cons y ys =>
      have hend : (isHeader i || isTopLevelKey y) = true := by simpa using hys y rfl
      rw [List.nil_append, blockLength, hend, Bool.true_or]
      rfl
  | cons x xs ih =>
    obtain ⟨hheader, hkey⟩ := hxs 0 x rfl
    have houter : isOuterItem 0 x = false := by simp [isOuterItem]
    have hrest : blockLength isHeader 0 (i + 1) (xs ++ ys) = xs.length := by
      refine ih (fun j y hj => ?_) fun y hy => ?_
      · rw [Nat.add_right_comm, Nat.add_assoc]
        exact hxs (j + 1) y (by simpa using hj)
      · rw [Nat.add_right_comm, Nat.add_assoc]
        exact hys y hy
    rw [List.cons_append, blockLength, hkey, houter, show isHeader i = false from hheader, hrest]
    rfl

/-- A block is made of the inert lines after its header, up to the next header or key. -/
theorem block_eq {lines front xs ys : List (List Char)} {h : Header}
    (hlines : lines = front ++ (xs ++ ys)) (hfront : h.line + 1 = front.length)
    (hindent : h.indent = 0) (hxs : ∀ x ∈ xs, IsInert x)
    (hys : ∀ y, ys.head? = some y → (∃ k ∈ headers lines, k.line = front.length + xs.length)
      ∨ isTopLevelKey y = true) :
    (lines.take (blockEnd lines (headers lines) h)).drop (h.line + 1) = xs := by
  have hdrop : lines.drop (h.line + 1) = xs ++ ys := by
    rw [hlines, hfront, List.drop_left]
  have hlength : blockLength (fun i => (headers lines).any fun k => k.line = i) h.indent
      (h.line + 1) (lines.drop (h.line + 1)) = xs.length := by
    rw [hdrop, hindent]
    refine blockLength_eq (fun j x hj => ?_) fun y hy => ?_
    · have hx : IsInert x := hxs x (List.mem_of_getElem? hj)
      have hget : lines[h.line + 1 + j]? = some x := by
        rw [← List.getElem?_drop, hdrop, List.getElem?_append_left]
        · exact hj
        · exact (List.getElem?_eq_some_iff.1 hj).1
      refine ⟨List.any_eq_false.2 fun k hk hline => ?_, ?_⟩
      · -- A header on the line would make it a list item with a key.
        obtain ⟨line, rest, hline', hkey⟩ := exists_of_mem_headers hk
        rw [of_decide_eq_true hline, hget] at hline'
        rw [← Option.some.inj hline', hx.itemKey] at hkey
        exact absurd hkey (by simp)
      · rw [isTopLevelKey, hx.topLevelKey]
        rfl
    · rcases hys y hy with ⟨k, hk, hline⟩ | hkey
      · exact .inl (List.any_eq_true.2 ⟨k, hk, decide_eq_true (hfront ▸ hline)⟩)
      · exact .inr hkey
  rw [blockEnd, hlength, List.drop_take, hdrop, Nat.add_sub_cancel_left, List.take_left]

end ThreatTree.Location
