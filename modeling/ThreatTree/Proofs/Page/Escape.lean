import ThreatTree.Page.Html

/-!
# Escaped text

An escaped text has none of the characters that delimit tags and attributes, and is decoded to
the text wherever it stands (`decode_escape_append`). So nothing in it is taken for markup: a
search for a tag goes past it (`misses_of_not_mem`, `upTo?_append_of_not_mem`).
-/

namespace ThreatTree

/-! ## Searching for a tag -/

namespace Text

variable {mark : Char} {s : List Char}

/-- No occurrence of the piece starts in the text, whatever follows the text. -/
def Misses (piece s : List Char) : Prop := ∀ t, from? piece (s ++ t) = from? piece t

theorem misses_nil (piece : List Char) : Misses piece [] := fun _ => rfl

theorem Misses.append {piece s t : List Char} (hs : Misses piece s) (ht : Misses piece t) :
    Misses piece (s ++ t) := by
  intro rest
  rw [List.append_assoc, hs, ht]

theorem misses_flatMap {α : Type} {piece : List Char} {f : α → List Char} {l : List α}
    (h : ∀ a ∈ l, Misses piece (f a)) : Misses piece (l.flatMap f) := by
  induction l with
  | nil => exact misses_nil piece
  | cons a l ih =>
    rw [List.flatMap_cons]
    exact (h a List.mem_cons_self).append (ih fun b hb => h b (List.mem_cons_of_mem a hb))

theorem misses_intercalate {piece : List Char} {sep : String} (hsep : Misses piece sep.toList)
    {l : List String} (h : ∀ s ∈ l, Misses piece s.toList) :
    Misses piece (sep.intercalate l).toList := by
  induction l with
  | nil => exact misses_nil piece
  | cons s l ih =>
    have hs := h s List.mem_cons_self
    cases l with
    | nil => rwa [String.intercalate_singleton]
    | cons t l =>
      rw [String.intercalate_cons_cons, String.toList_append, String.toList_append]
      exact (hs.append hsep).append (ih fun u hu => h u (List.mem_cons_of_mem s hu))

/-- Nothing is found where its first character is missing. -/
theorem misses_of_not_mem (piece : List Char) (h : mark ∉ s) : Misses (mark :: piece) s := by
  intro t
  induction s with
  | nil => rfl
  | cons c s ih =>
    rw [List.mem_cons, not_or] at h
    rw [List.cons_append, from?, dropPiece?, if_neg h.1]
    exact ih h.2

theorem upTo?_append_of_not_mem (piece : List Char) (h : mark ∉ s) (t : List Char) :
    upTo? (mark :: piece) (s ++ t) = (upTo? (mark :: piece) t).map (s ++ ·) := by
  induction s with
  | nil => simp
  | cons c s ih =>
    rw [List.mem_cons, not_or] at h
    rw [List.cons_append, upTo?, dropPiece?, if_neg h.1, ih h.2, Option.map_map]
    rfl

theorem dropPiece?_self_append (piece t : List Char) : dropPiece? piece (piece ++ t) = some t := by
  induction piece with
  | nil => rfl
  | cons c piece ih => rw [List.cons_append, dropPiece?, if_pos rfl, ih]

theorem from?_self_append {piece : List Char} (h : piece ≠ []) (t : List Char) :
    from? piece (piece ++ t) = some (piece ++ t) := by
  have hdrop := dropPiece?_self_append piece t
  cases piece with
  | nil => contradiction
  | cons c piece =>
    rw [List.cons_append] at hdrop ⊢
    rw [from?, hdrop]
    rfl

theorem upTo?_self_append {piece : List Char} (h : piece ≠ []) (t : List Char) :
    upTo? piece (piece ++ t) = some [] := by
  have hdrop := dropPiece?_self_append piece t
  cases piece with
  | nil => contradiction
  | cons c piece =>
    rw [List.cons_append] at hdrop ⊢
    rw [upTo?, hdrop]
    rfl

/-- The texts differ at a place that both have. -/
def differ : List Char → List Char → Bool
  | p :: piece, c :: s => p != c || differ piece s
  | _, _ => false

/-- The piece differs from every end of the text at a place that both have. -/
def avoids (piece : List Char) : List Char → Bool
  | [] => true
  | c :: s => differ piece (c :: s) && avoids piece s

theorem dropPiece?_of_differ {piece s : List Char} (h : differ piece s = true) (t : List Char) :
    dropPiece? piece (s ++ t) = none := by
  induction piece generalizing s with
  | nil => simp [differ] at h
  | cons p piece ih =>
    cases s with
    | nil => simp [differ] at h
    | cons c s =>
      rw [List.cons_append, dropPiece?]
      by_cases hpc : p = c
      · rw [if_pos hpc]
        exact ih (by simpa [differ, hpc] using h)
      · rw [if_neg hpc]

theorem misses_of_avoids {piece s : List Char} (h : avoids piece s = true) : Misses piece s := by
  intro t
  induction s with
  | nil => rfl
  | cons c s ih =>
    rw [avoids, Bool.and_eq_true] at h
    have hdrop := dropPiece?_of_differ h.1 t
    rw [List.cons_append] at hdrop ⊢
    rw [from?, hdrop]
    exact ih h.2

end Text

namespace Html

/-! ## Elements -/

/-- What stands between a start tag and the next end tag, if there is no markup in it. -/
theorem element?_of_from? {name page attributes content rest : List Char}
    (hpage : Text.from? ('<' :: name) page = some ('<' :: name ++ (attributes
      ++ '>' :: (content ++ ('<' :: '/' :: name ++ ['>'] ++ rest)))))
    (hname : '>' ∉ name) (hattributes : '>' ∉ attributes) (hcontent : '<' ∉ content) :
    element? name page = some content := by
  have htag : ∀ c ∈ '<' :: name ++ attributes, decide (c ≠ '>') = true := by
    intro c hc
    rw [decide_eq_true_eq]
    rintro rfl
    simp [hname, hattributes] at hc
  have hend : '<' :: '/' :: name ++ ['>'] ≠ [] := by simp
  rw [element?, hpage, Option.bind_some, ← List.append_assoc, List.dropWhile_append_of_pos htag,
    List.dropWhile_cons_of_neg (by simp), List.drop_one, List.tail_cons]
  simp only [List.cons_append] at hend ⊢
  rw [Text.upTo?_append_of_not_mem _ hcontent]
  have hnext := Text.upTo?_self_append hend rest
  simp only [List.cons_append] at hnext
  rw [hnext, Option.map_some, List.append_nil]

/-! ## Escaping and decoding -/

theorem escape_cons (c : Char) (s : List Char) : escape (c :: s) = escapeChar c ++ escape s :=
  List.flatMap_cons

/-- A character that is no delimiter and no ampersand is written as it is. -/
theorem escapeChar_of_not_mem {c : Char} (h : c ∉ delimiters) (hc : c ≠ '&') :
    escapeChar c = [c] := by
  simp only [delimiters, List.mem_cons, List.not_mem_nil, or_false, not_or] at h
  obtain ⟨hlt, hgt, hquote, hsingle⟩ := h
  rw [escapeChar, if_neg hc, if_neg hlt, if_neg hgt, if_neg hquote, if_neg hsingle]

/-- The replacements have no delimiter in them. -/
theorem all_escapeChar {c : Char} (h : c ∈ '&' :: delimiters) :
    (escapeChar c).all fun d => !delimiters.contains d := by
  simp only [delimiters, List.mem_cons, List.not_mem_nil, or_false] at h
  rcases h with rfl | rfl | rfl | rfl | rfl <;> decide +kernel

theorem forall_mem_escapeChar (c : Char) : ∀ d ∈ escapeChar c, d ∉ delimiters := by
  intro d hd
  by_cases hc : c ∈ '&' :: delimiters
  · simpa using List.all_eq_true.1 (all_escapeChar hc) d hd
  · rw [List.mem_cons, not_or] at hc
    rw [escapeChar_of_not_mem hc.2 hc.1, List.mem_singleton] at hd
    rw [hd]
    exact hc.2

/-- An escaped text has no delimiter. -/
theorem forall_mem_escape (s : List Char) : ∀ c ∈ escape s, c ∉ delimiters := by
  intro c hc
  obtain ⟨d, -, hd⟩ := List.mem_flatMap.1 hc
  exact forall_mem_escapeChar d c hd

theorem not_mem_escape {c : Char} (h : c ∈ delimiters) (s : List Char) : c ∉ escape s :=
  fun hc => forall_mem_escape s c hc h

theorem decode_cons {c : Char} (h : c ≠ '&') (rest : List Char) :
    decode (c :: rest) = c :: decode rest := by
  rw [decode]
  all_goals
    intro _ hc
    exact absurd hc h

theorem decode_escapeChar_append (c : Char) (rest : List Char) :
    decode (escapeChar c ++ rest) = c :: decode rest := by
  by_cases hdelimiter : c ∈ delimiters
  · simp only [delimiters, List.mem_cons, List.not_mem_nil, or_false] at hdelimiter
    rcases hdelimiter with rfl | rfl | rfl | rfl <;> rfl
  · by_cases hc : c = '&'
    · subst hc
      rfl
    · rw [escapeChar_of_not_mem hdelimiter hc, List.singleton_append, decode_cons hc]

/-- An escaped text is decoded to the text, whatever follows it. -/
theorem decode_escape_append (s rest : List Char) :
    decode (escape s ++ rest) = s ++ decode rest := by
  induction s with
  | nil => rfl
  | cons c s ih =>
    rw [escape_cons, List.append_assoc, decode_escapeChar_append, ih, List.cons_append]

theorem decode_escape (s : List Char) : decode (escape s) = s := by
  have happend := decode_escape_append s []
  rwa [List.append_nil, decode, List.append_nil] at happend

end Html

end ThreatTree
