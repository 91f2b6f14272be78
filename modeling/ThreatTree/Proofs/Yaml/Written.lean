import ThreatTree.Proofs.Yaml.Plain
import ThreatTree.Proofs.Yaml.Escape
import ThreatTree.Proofs.Text.Pieces

/-!
# What is written

However a text is written, with or without quotes, what is written of it needs no escapes itself
(`isDirect_scalar`), so it may stand in a data file and has no carriage return. Where it ends
matters when white space is cut off behind it: in quotes it ends with a quote, and without quotes
it ends as the text does (`entry_eq`).
-/

namespace ThreatTree.Yaml.Writing

/-! ## Characters that need no escape -/

theorem isAllowed_of_isDirect {ch : Char} (h : isDirect ch = true) :
    isAllowed ch = true ∧ ch ≠ '\r' := by
  constructor
  · simp only [isDirect, Bool.or_eq_true, Bool.and_eq_true, beq_iff_eq, decide_eq_true_eq] at h
    obtain (rfl | h) | h := h
    · rfl
    · simp [isAllowed, h]
    · exact h.1.1.1
  · rintro rfl
    exact absurd h (by decide)

theorem isDirect_of_not_isEscaped {ch : Char} (h : isEscaped ch = false) :
    isDirect ch = true := by
  simp only [isEscaped, Bool.or_eq_false_iff, Bool.not_eq_false', Bool.or_eq_true,
    Bool.and_eq_true, decide_eq_true_eq, beq_eq_false_iff_ne] at h
  obtain ⟨⟨-, hmark⟩, hn⟩ := h
  simp only [isDirect, isAllowed, Bool.or_eq_true, Bool.and_eq_true, decide_eq_true_eq,
    beq_iff_eq, bne_iff_ne]
  obtain (h | h) | h := hn
  · exact .inl (.inr h)
  · exact .inr ⟨⟨⟨by omega, by omega⟩, hmark⟩, by omega⟩
  · exact .inr ⟨⟨⟨by omega, by omega⟩, hmark⟩, by omega⟩

theorem isDirect_of_isHexDigit {ch : Char} (h : isHexDigit ch = true) : isDirect ch = true := by
  have hall : ∀ n < 0x80, isHexDigit (Char.ofNat n) = true → isDirect (Char.ofNat n) = true := by
    decide
  have hlt : ch.toNat < 0x80 := by
    simp only [isHexDigit, Bool.and_eq_true, decide_eq_true_eq] at h
    exact h.1
  have hch := hall ch.toNat hlt
  rw [Char.ofNat_toNat] at hch
  exact hch h

theorem isDirect_hexDigits (count n : Nat) : ∀ ch ∈ hexDigits count n, isDirect ch = true := by
  obtain ⟨-, hall⟩ := hexValue_toDigits n
  rw [hexDigits, List.forall_mem_append]
  constructor
  · intro ch hch
    rw [(List.mem_replicate.mp hch).2]
    rfl
  · exact fun ch hch => isDirect_of_isHexDigit (List.all_eq_true.mp hall ch hch)

theorem isDirect_escapeOf (ch : Char) : ∀ e ∈ escapeOf ch, isDirect e = true := by
  rw [escapeOf]
  split
  · next l hl =>
    obtain ⟨before, after, htable, -⟩ := List.lookup_eq_some_iff.1 hl
    have hall : ∀ p ∈ before ++ (ch, l) :: after, isDirect p.2 = true := by
      rw [← htable]
      decide
    simpa using ⟨rfl, hall (ch, l) (by simp)⟩
  · split
    · simpa using ⟨rfl, rfl, isDirect_hexDigits 2 _⟩
    · split
      · simpa using ⟨rfl, rfl, isDirect_hexDigits 4 _⟩
      · simpa using ⟨rfl, rfl, isDirect_hexDigits 8 _⟩

/-! ## Characters of a written text -/

/-- For characters that are known. -/
theorem isDirect_of_all {s : List Char} (h : s.all isDirect = true) :
    ∀ ch ∈ s, isDirect ch = true :=
  List.all_eq_true.mp h

theorem isDirect_brokenBefore (next : Option Char) :
    ∀ ch ∈ (brokenBefore next).1, isDirect ch = true := by
  rw [brokenBefore]
  split <;> exact isDirect_of_all rfl

theorem isDirect_doubleQuotedBody (s : List Char) (isFirst : Bool) (column waiting : Nat) :
    ∀ ch ∈ doubleQuotedBody isFirst column waiting s, isDirect ch = true := by
  induction s generalizing isFirst column waiting with
  | nil => simp [doubleQuotedBody]
  | cons ch s ih =>
    obtain ⟨-, column', hbody⟩ | ⟨-, hbody⟩ | ⟨hch, -, hbody⟩ | ⟨hch, hbody⟩ :=
      doubleQuotedBody_cons isFirst column waiting ch s
    · rw [hbody, List.forall_mem_append]
      exact ⟨isDirect_escapeOf ch, ih _ _ _⟩
    · rw [hbody, List.forall_mem_append, List.forall_mem_append]
      exact ⟨isDirect_escapeOf ch, isDirect_brokenBefore _, ih _ _ _⟩
    · rw [hbody, List.forall_mem_append, List.forall_mem_cons]
      exact ⟨isDirect_brokenBefore _, isDirect_of_not_isEscaped hch, ih _ _ _⟩
    · rw [hbody, List.forall_mem_cons]
      exact ⟨isDirect_of_not_isEscaped hch, ih _ _ _⟩

/-- Line breaks and indents are all that is added to the characters of the runs. -/
theorem isDirect_writeRuns {write : List Char → List Char} {rs : List Run}
    (hwrite : ∀ t, ∀ ch ∈ write t, ch ∈ t) (hrs : ∀ r ∈ rs, ∀ ch ∈ r.chars, isDirect ch = true)
    (isFirst : Bool) (column : Nat) :
    ∀ ch ∈ writeRuns write isFirst column rs, isDirect ch = true := by
  induction rs generalizing isFirst column with
  | nil => simp [writeRuns]
  | cons r rs ih =>
    obtain ⟨hr, hmore⟩ := List.forall_mem_cons.mp hrs
    cases r with
    | text t =>
      rw [writeRuns, List.forall_mem_append]
      exact ⟨fun ch hch => hr ch (hwrite t ch hch), ih hmore _ _⟩
    | lineEnds bs =>
      rw [writeRuns, writeLineEnds, List.forall_mem_append, List.forall_mem_append,
        List.forall_mem_append]
      refine ⟨⟨⟨?_, hr⟩, isDirect_of_all rfl⟩, ih hmore _ _⟩
      split <;> exact isDirect_of_all rfl
    | blanks n =>
      rw [writeRuns]
      split
      · rw [List.forall_mem_append]
        exact ⟨isDirect_of_all rfl, ih hmore _ _⟩
      · rw [List.forall_mem_append]
        exact ⟨hr, ih hmore _ _⟩

theorem mem_of_mem_doubleQuotes (t : List Char) : ∀ ch ∈ doubleQuotes t, ch ∈ t := by
  intro ch hch
  obtain ⟨d, hd, hch⟩ := List.mem_flatMap.mp hch
  have heq : ch = d := by
    split at hch
    · next h =>
      rw [beq_iff_eq] at h
      simpa [h] using hch
    · exact List.mem_singleton.mp hch
  exact heq ▸ hd

theorem isDirect_of_mem_runs {s : List Char} (hs : needsEscapes s = false) :
    ∀ r ∈ runs s, ∀ ch ∈ r.chars, isDirect ch = true := by
  simp only [needsEscapes, Bool.or_eq_false_iff, Bool.not_eq_false', List.all_eq_true] at hs
  intro r hr ch hch
  apply hs.1.1 ch
  rw [← flatMap_chars_runs s]
  exact List.mem_flatMap.mpr ⟨r, hr, hch⟩

/-- **What is written needs no escapes itself.** -/
theorem isDirect_scalar (column : Nat) (s : List Char) :
    ∀ ch ∈ scalar column s, isDirect ch = true := by
  rw [scalar]
  split
  · next h =>
    have hs : needsEscapes s = false := by
      simp only [isPlain, Bool.and_eq_true, Bool.not_eq_true'] at h
      exact h.1.1.1.1.1.1.1.2
    exact isDirect_writeRuns (fun _ _ => id) (isDirect_of_mem_runs hs) _ _
  · split
    · rw [doubleQuoted, List.cons_append, List.forall_mem_cons, List.forall_mem_append]
      exact ⟨rfl, isDirect_doubleQuotedBody _ _ _ _, isDirect_of_all rfl⟩
    · next hs =>
      rw [Bool.not_eq_true] at hs
      rw [singleQuoted, List.cons_append, List.forall_mem_cons, List.forall_mem_append]
      exact ⟨rfl, isDirect_writeRuns mem_of_mem_doubleQuotes (isDirect_of_mem_runs hs) _ _,
        isDirect_of_all rfl⟩

/-! ## Ends of a written text -/

theorem ArePlain.getLast?_writeRuns {rs : List Run} (h : ArePlain rs) (isFirst : Bool)
    (column : Nat) :
    (writeRuns id isFirst column rs).getLast? = (rs.flatMap Run.chars).getLast? := by
  induction h generalizing isFirst column with
  | @last t ht => simp [writeRuns, Run.chars]
  | @cons t n rs ht hn h ih =>
    -- The last word counts, so the gap in front of the rest may be written either way.
    have hrest (gap : List Char) (column : Nat) :
        (t ++ (gap ++ writeRuns id false column rs)).getLast?
          = (rs.flatMap Run.chars).getLast? := by
      obtain ⟨ch, tail, hhead, -⟩ := h.exists_head false column
      rw [List.getLast?_append_of_ne_nil _ (by simp [hhead]),
        List.getLast?_append_of_ne_nil _ (by simp [hhead]), ih]
    obtain ⟨t', rs', hrs, ht'⟩ := h.exists_word
    have hne : rs.flatMap Run.chars ≠ [] := by simp [hrs, Run.chars, ht'.ne_nil]
    have hflat : ((Run.text t :: .blanks n :: rs).flatMap Run.chars).getLast?
        = (rs.flatMap Run.chars).getLast? := by
      rw [List.flatMap_cons, List.flatMap_cons, ← List.append_assoc,
        List.getLast?_append_of_ne_nil _ hne]
    rw [hflat, writeRuns_text]
    obtain ⟨column', ⟨-, hw⟩ | hw⟩ := writeRuns_blanks n (column + t.length) rs
    · rw [hw]
      exact hrest _ _
    · rw [hw]
      exact hrest _ _

theorem getLast?_scalar_of_isPlain {s : List Char} (h : isPlain s = true) (column : Nat) :
    (scalar column s).getLast? = s.getLast? := by
  rw [scalar, if_pos h, plain, (isReadPlain_of_isPlain h).arePlain_runs.getLast?_writeRuns,
    flatMap_chars_runs]

theorem getLast?_scalar_of_not_isPlain {s : List Char} (h : isPlain s = false) (column : Nat) :
    (scalar column s).getLast? = some (quote (needsEscapes s)) := by
  rw [scalar, if_neg (by simp [h])]
  cases needsEscapes s with
  | true => rw [if_pos rfl, doubleQuoted, List.getLast?_concat]; rfl
  | false => rw [if_neg (by decide), singleQuoted, List.getLast?_concat]; rfl

theorem scalar_ne_nil (column : Nat) (s : List Char) : scalar column s ≠ [] := by
  rw [scalar]
  split
  · next h =>
    obtain ⟨ch, tail, hhead, -⟩ := (isReadPlain_of_isPlain h).arePlain_runs.exists_head true column
    rw [plain, hhead]
    exact List.cons_ne_nil ch tail
  · split <;> exact List.cons_ne_nil _ _

/-- Nothing is cut off from an entry, unless its text is written without quotes and ends with
white space. -/
theorem entry_eq {key : String} {c : Char} {k s : List Char} (hkey : key.toList = c :: k)
    (hc : Text.isBlank c = false)
    (hs : isPlain s = true → ∀ d ∈ s.getLast?, Text.isBlank d = false) :
    entry key s = key.toList ++ [':', ' '] ++ scalar (key.toList ++ [':', ' ']).length s := by
  have hstart (t : List Char) : Text.trimStart (key.toList ++ [':', ' '] ++ t)
      = key.toList ++ [':', ' '] ++ t := by
    rw [hkey]
    exact Text.trimStart_cons_of_not_blank hc _
  have hlast (column : Nat) : ∀ d ∈ (scalar column s).getLast?, Text.isBlank d = false := by
    cases hplain : isPlain s with
    | true => rw [getLast?_scalar_of_isPlain hplain]; exact hs hplain
    | false =>
      rw [getLast?_scalar_of_not_isPlain hplain]
      rintro d ⟨⟩
      cases needsEscapes s <;> rfl
  rw [entry, Text.trim, hstart, Text.trimEnd_of_getLast?]
  rw [List.getLast?_append_of_ne_nil _ (scalar_ne_nil _ _)]
  exact hlast _

end ThreatTree.Yaml.Writing
