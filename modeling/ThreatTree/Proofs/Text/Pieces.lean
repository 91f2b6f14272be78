import ThreatTree.Text.Blank
import ThreatTree.Text.Lines

/-!
# Pieces of a text

What cutting a text says about the text: pieces without the separator are found again after
they were joined (`splitOn_join`), and what is left after dropping a piece or leading white
space is the rest of the text.
-/

namespace ThreatTree.Text

/-! ## Pieces between separators -/

theorem splitOn_of_not_mem {sep : Char} {s : List Char} (h : sep ∉ s) :
    splitOn sep s = [s] := by
  induction s with
  | nil => rfl
  | cons c s ih =>
    rw [List.mem_cons, not_or] at h
    rw [splitOn, if_neg (Ne.symm h.1), ih h.2]

theorem splitOn_append {sep : Char} {s : List Char} (h : sep ∉ s) (t : List Char) :
    splitOn sep (s ++ sep :: t) = s :: splitOn sep t := by
  induction s with
  | nil => rw [List.nil_append, splitOn, if_pos rfl]
  | cons c s ih =>
    rw [List.mem_cons, not_or] at h
    rw [List.cons_append, splitOn, if_neg (Ne.symm h.1), ih h.2]

theorem not_mem_of_mem_splitOn {sep : Char} {s piece : List Char} (h : piece ∈ splitOn sep s) :
    sep ∉ piece := by
  induction s generalizing piece with
  | nil => simp_all [splitOn]
  | cons c s ih =>
    rw [splitOn] at h
    by_cases hc : c = sep
    · rw [if_pos hc, List.mem_cons] at h
      rcases h with rfl | h
      · exact List.not_mem_nil
      · exact ih h
    · rw [if_neg hc] at h
      cases hs : splitOn sep s with
      | nil => exact absurd hs (splitOn_ne_nil sep s)
      | cons first rest =>
        rw [hs] at h ih
        rcases List.mem_cons.1 h with rfl | h
        · simp [Ne.symm hc, ih List.mem_cons_self]
        · exact ih (List.mem_cons_of_mem _ h)

theorem join_cons {sep piece : List Char} {pieces : List (List Char)} (h : pieces ≠ []) :
    join sep (piece :: pieces) = piece ++ sep ++ join sep pieces := by
  cases pieces with
  | nil => exact absurd rfl h
  | cons p ps => rfl

theorem mem_of_mem_join {sep : List Char} {pieces : List (List Char)} {c : Char}
    (h : c ∈ join sep pieces) : c ∈ sep ∨ ∃ piece ∈ pieces, c ∈ piece := by
  induction pieces with
  | nil => simp [join] at h
  | cons p ps ih =>
    cases ps with
    | nil => exact .inr ⟨p, List.mem_cons_self, h⟩
    | cons q qs =>
      rw [join_cons (by simp), List.append_assoc, List.mem_append, List.mem_append] at h
      rcases h with h | h | h
      · exact .inr ⟨p, List.mem_cons_self, h⟩
      · exact .inl h
      · obtain hsep | ⟨piece, hpiece, hc⟩ := ih h
        · exact .inl hsep
        · exact .inr ⟨piece, List.mem_cons_of_mem _ hpiece, hc⟩

/-- Joined pieces without the separator are found again. -/
theorem splitOn_join {sep : Char} {pieces : List (List Char)} (hne : pieces ≠ [])
    (h : ∀ p ∈ pieces, sep ∉ p) : splitOn sep (join [sep] pieces) = pieces := by
  induction pieces with
  | nil => exact absurd rfl hne
  | cons p ps ih =>
    have hp : sep ∉ p := h p List.mem_cons_self
    cases ps with
    | nil => exact splitOn_of_not_mem hp
    | cons q qs =>
      rw [join_cons (by simp), List.append_assoc, List.singleton_append, splitOn_append hp,
        ih (by simp) fun r hr => h r (List.mem_cons_of_mem _ hr)]

theorem toList_intercalate (sep : String) (l : List String) :
    (sep.intercalate l).toList = join sep.toList (l.map String.toList) := by
  induction l with
  | nil => rfl
  | cons a l ih =>
    cases l with
    | nil => rw [String.intercalate_singleton, List.map_singleton, join]
    | cons b l =>
      rw [String.intercalate_cons_cons, String.toList_append, String.toList_append, ih]
      exact (join_cons (by simp)).symm

/-! ## Dropping -/

theorem dropPiece?_eq_some_iff {piece s rest : List Char} :
    dropPiece? piece s = some rest ↔ s = piece ++ rest := by
  induction piece generalizing s with
  | nil => simp [dropPiece?]
  | cons p piece ih =>
    cases s with
    | nil => simp [dropPiece?]
    | cons c s =>
      rw [dropPiece?, List.cons_append, List.cons.injEq]
      split
      · next h => rw [ih, h, eq_self, true_and]
      · next h => simp [Ne.symm h]

theorem replaceFirst_append {piece : List Char} (hne : piece ≠ []) (other rest : List Char) :
    replaceFirst piece other (piece ++ rest) = other ++ rest := by
  have hdrop : dropPiece? piece (piece ++ rest) = some rest := dropPiece?_eq_some_iff.2 rfl
  obtain ⟨c, piece, rfl⟩ := List.exists_cons_of_ne_nil hne
  rw [List.cons_append] at hdrop ⊢
  rw [replaceFirst, hdrop]

/-! ## Words -/

/-- A word has no white space. -/
theorem not_isBlank_of_mem_words {s : List Char} :
    ∀ w ∈ words s, ∀ c ∈ w, ¬ isBlank c = true := by
  fun_induction words s with
  | case1 => simp
  | case2 c s hc ih => exact ih
  | case3 c hc => simpa using hc
  | case4 c hc d s hd ih => exact List.forall_mem_cons.2 ⟨by simpa using hc, ih⟩
  | case5 c hc d s hd heq ih => simpa [heq] using hc
  | case6 c hc d s hd w ws heq ih =>
    rw [heq, List.forall_mem_cons] at ih
    rw [heq]
    exact List.forall_mem_cons.2 ⟨List.forall_mem_cons.2 ⟨hc, ih.1⟩, ih.2⟩

/-! ## White space at the ends -/

/-- The white space in front of a text. -/
def margin (s : List Char) : List Char := s.takeWhile isBlank

theorem margin_append_trimStart (s : List Char) : margin s ++ trimStart s = s :=
  List.takeWhile_append_dropWhile

theorem isBlank_of_mem_margin {s : List Char} {c : Char} (h : c ∈ margin s) :
    isBlank c = true :=
  List.all_eq_true.1 List.all_takeWhile c h

theorem length_margin (s : List Char) : (margin s).length = s.length - (trimStart s).length := by
  have h := congrArg List.length (margin_append_trimStart s)
  rw [List.length_append] at h
  omega

theorem trimStart_append_of_blank {m s : List Char} (h : ∀ c ∈ m, isBlank c = true) :
    trimStart (m ++ s) = trimStart s := by
  rw [trimStart, List.dropWhile_append_of_pos h, trimStart]

theorem trimStart_cons_of_not_blank {c : Char} (h : isBlank c = false) (s : List Char) :
    trimStart (c :: s) = c :: s := by
  rw [trimStart, List.dropWhile_cons_of_neg (by simp [h])]

theorem trimEnd_of_getLast? {s : List Char} (h : ∀ c ∈ s.getLast?, isBlank c = false) :
    trimEnd s = s := by
  rw [← List.head?_reverse] at h
  rw [trimEnd]
  cases hs : s.reverse with
  | nil => simpa using hs.symm
  | cons c t =>
    rw [hs] at h
    rw [List.dropWhile_cons_of_neg (by simp [h c rfl]), ← hs, List.reverse_reverse]

end ThreatTree.Text
