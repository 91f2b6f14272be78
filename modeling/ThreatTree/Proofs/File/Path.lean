import ThreatTree.File.Folder
import ThreatTree.Proofs.Text.Pieces

/-!
# Written paths

The parts of a path are the pieces of its written form that count (`IsWritable`), so a path is
read back from the form in which it is shown (`ofString_text`).
-/

namespace ThreatTree.File.Path

/-- A part that counts: it is not empty, not a dot, and has no slash. -/
def CanBePart (part : String) : Prop := part ≠ "" ∧ part ≠ "." ∧ '/' ∉ part.toList

/-- The slashes in front and every part of the path count. -/
structure IsWritable (p : Path) : Prop where
  slashes : p.slashes ≤ 2
  parts : ∀ part ∈ p.parts, CanBePart part

theorem slashesOf_le (s : String) : slashesOf s ≤ 2 := by
  simp only [slashesOf]
  split <;> omega

theorem isWritable_ofString (s : String) : (ofString s).IsWritable := by
  refine ⟨slashesOf_le s, ?_⟩
  intro part hpart
  simp only [ofString, partsOf, List.mem_filter, List.mem_map, decide_eq_true_eq,
    Bool.and_eq_true] at hpart
  obtain ⟨⟨piece, hpiece, rfl⟩, hne, hdot⟩ := hpart
  refine ⟨hne, hdot, ?_⟩
  rw [String.toList_ofList]
  exact Text.not_mem_of_mem_splitOn hpiece

/-- The pieces of parts that were joined are the parts again. -/
theorem splitOn_intercalate {parts : List String} (hne : parts ≠ [])
    (h : ∀ part ∈ parts, CanBePart part) :
    Text.splitOn '/' ("/".intercalate parts).toList = parts.map String.toList := by
  rw [Text.toList_intercalate]
  apply Text.splitOn_join (by simpa using hne)
  intro piece hpiece
  obtain ⟨part, hpart, rfl⟩ := List.mem_map.1 hpiece
  exact (h part hpart).2.2

theorem filter_parts {parts : List String} (h : ∀ part ∈ parts, CanBePart part) :
    ((parts.map String.toList).map String.ofList).filter (fun p => p ≠ "" && p ≠ ".") = parts := by
  have hmap : (parts.map String.toList).map String.ofList = parts := by
    rw [List.map_map]
    exact (List.map_congr_left fun s _ => String.ofList_toList).trans (List.map_id _)
  rw [hmap, List.filter_eq_self]
  intro part hpart
  simp [(h part hpart).1, (h part hpart).2.1]

theorem partsOf_intercalate {parts : List String} (h : ∀ part ∈ parts, CanBePart part) :
    partsOf ("/".intercalate parts) = parts := by
  by_cases hne : parts = []
  · subst hne
    decide
  · rw [partsOf, splitOn_intercalate hne h, filter_parts h]

/-- Slashes in front add empty pieces. -/
theorem splitOn_slashes (n : Nat) (s : List Char) :
    Text.splitOn '/' (List.replicate n '/' ++ s) = List.replicate n [] ++ Text.splitOn '/' s := by
  induction n with
  | zero => rfl
  | succ n ih =>
    rw [List.replicate_succ, List.cons_append, Text.splitOn, if_pos rfl, ih, List.replicate_succ,
      List.cons_append]

theorem partsOf_slashes (n : Nat) (s : String) :
    partsOf (String.ofList (List.replicate n '/') ++ s) = partsOf s := by
  -- Empty pieces do not count.
  have hempty : ((List.replicate n ([] : List Char)).map String.ofList).filter
      (fun p => p ≠ "" && p ≠ ".") = [] := by
    rw [List.map_replicate, List.filter_replicate]
    rfl
  rw [partsOf, String.toList_append, String.toList_ofList, splitOn_slashes, List.map_append,
    List.filter_append, hempty, List.nil_append]
  rfl

/-- The parts of a path are read back from the form in which it is shown. -/
theorem partsOf_text {p : Path} (h : p.IsWritable) : partsOf p.text = p.parts := by
  have hbody := partsOf_intercalate h.parts
  rw [text]
  by_cases habsolute : p.isAbsolute = true
  · rw [if_pos habsolute, partsOf_slashes]
    exact hbody
  · rw [if_neg habsolute]
    by_cases hempty : p.parts.isEmpty = true
    · rw [if_pos hempty, List.isEmpty_iff.1 hempty]
      decide
    · rw [if_neg hempty, hbody]

/-- Parts that were joined start with no slash. -/
theorem takeWhile_intercalate {parts : List String} (h : ∀ part ∈ parts, CanBePart part) :
    ("/".intercalate parts).toList.takeWhile (· == '/') = [] := by
  cases parts with
  | nil => rfl
  | cons first rest =>
    obtain ⟨hempty, -, hslash⟩ := h first List.mem_cons_self
    cases hfirst : first.toList with
    | nil => exact absurd (String.toList_inj.1 hfirst) hempty
    | cons c s =>
      have hc : (c == '/') = false := by
        rw [beq_eq_false_iff_ne]
        rintro rfl
        exact hslash (by simp [hfirst])
      rw [Text.toList_intercalate, List.map_cons, hfirst]
      cases rest <;> simp [Text.join, hc]

theorem slashesOf_text {p : Path} (h : p.IsWritable) : slashesOf p.text = p.slashes := by
  have hbody := takeWhile_intercalate h.parts
  have hle := h.slashes
  rw [slashesOf, text]
  by_cases habsolute : p.isAbsolute = true
  · have hall : ∀ c ∈ List.replicate p.slashes '/', (c == '/') = true := by simp
    rw [if_pos habsolute, String.toList_append, String.toList_ofList,
      List.takeWhile_append_of_pos hall, hbody, List.append_nil, List.length_replicate]
    exact if_pos hle
  · have hzero : p.slashes = 0 := by simpa [isAbsolute] using habsolute
    rw [if_neg habsolute, hzero]
    by_cases hempty : p.parts.isEmpty = true
    · rw [if_pos hempty]
      decide
    · rw [if_neg hempty, hbody]
      rfl

/-- A path is read back from the form in which it is shown. -/
theorem ofString_text {p : Path} (h : p.IsWritable) : ofString p.text = p := by
  rw [ofString, slashesOf_text h, partsOf_text h]

theorem isEmpty_text {p : Path} (h : p.IsWritable) : p.text.isEmpty = false := by
  rw [Bool.eq_false_iff]
  intro hempty
  -- The only path that an empty text could show is that to the working folder, shown as a dot.
  have hback := ofString_text h
  rw [String.isEmpty_iff.1 hempty] at hback
  rw [← hback] at hempty
  exact absurd hempty (by decide)

end ThreatTree.File.Path
