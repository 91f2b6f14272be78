import ThreatTree.Proofs.Yaml.Cursor
import ThreatTree.Proofs.Yaml.Run
import ThreatTree.Yaml.Quoted

/-!
# Texts between quotes

What stands inside quotes is read piece by piece: characters, doubled quotes, escapes, and gaps,
in which line ends are folded. `ReadsTo` says this without fuel, and the lexer follows it
(`readQuoted_eq`).

A text between single quotes is read back (`readQuoted_singleQuoted`): a blank stays a blank, also
where the line was broken at it, and line ends are written once more than they are read.
-/

namespace ThreatTree.Yaml

/-- The quote around a scalar. -/
def quote (double : Bool) : Char := if double then '"' else '\''

/-- What stands inside quotes from a place on reads as a text, and the scalar ends at another
place. -/
inductive ReadsTo (double : Bool) : Cursor → List Char → Cursor → Prop where
  | close {c : Cursor} {rest : List Char} (hc : c.rest = quote double :: rest)
    (hrest : double = false → rest.head? ≠ some '\'') : ReadsTo double c [] c.next
  | char {c c' : Cursor} {ch : Char} {rest s : List Char} (hc : c.rest = ch :: rest)
    (hgap : isGap ch = false) (hquote : ch ≠ quote double) (hescape : double = true → ch ≠ '\\')
    (h : ReadsTo double c.next s c') : ReadsTo double c (ch :: s) c'
  | doubled {c c' : Cursor} {rest s : List Char} (hdouble : double = false)
    (hc : c.rest = '\'' :: '\'' :: rest) (h : ReadsTo double (c.skip 2) s c') :
    ReadsTo double c ('\'' :: s) c'
  | escape {c c₁ c' : Cursor} {rest e s : List Char} (hdouble : double = true)
    (hc : c.rest = '\\' :: rest) (he : readEscape c.next = .ok (e, c₁))
    (hlt : c₁.rest.length < c.rest.length) (h : ReadsTo double c₁ s c') :
    ReadsTo double c (e ++ s) c'
  | gap {c c₁ c' : Cursor} {ch : Char} {rest g s : List Char} (hc : c.rest = ch :: rest)
    (hgap : isGap ch = true) (hg : readQuotedGap c = .ok (g, c₁))
    (hlt : c₁.rest.length < c.rest.length) (h : ReadsTo double c₁ s c') :
    ReadsTo double c (g ++ s) c'

/-- What follows a run: the closing quote, or a gap and what comes after it. -/
def readQuotedRest (double : Bool) (n : Nat) (c : Cursor) : Except Error (List Char × Cursor) :=
  if c.sees (quote double) then .ok ([], c.next)
  else do
    let (gap, c) ← readQuotedGap c
    let (more, c) ← readQuotedBody double n c
    return (gap ++ more, c)

theorem readQuotedBody_succ (double : Bool) (n : Nat) (c : Cursor) :
    readQuotedBody double (n + 1) c = do
      let (run, c) ← readQuotedRun double (c.rest.length + 1) c
      let (more, c) ← readQuotedRest double n c
      return (run ++ more, c) := by
  rw [readQuotedBody]
  congr 1
  funext ⟨run, c⟩
  by_cases hquote : c.sees (quote double) = true
  · have hquote' : c.sees (if double then '"' else '\'') = true := hquote
    simp only [readQuotedRest, hquote, hquote', if_true]
    exact congrArg (fun r => Except.ok (r, c.next)) (List.append_nil run).symm
  · have hquote' : ¬ c.sees (if double then '"' else '\'') = true := hquote
    simp only [readQuotedRest, hquote, hquote']
    simp

namespace ReadsTo

variable {double : Bool} {c c' : Cursor} {s : List Char}

/-- A run and what follows it, if there are as many steps as characters. -/
def Splits (double : Bool) (c : Cursor) (s : List Char) (c' : Cursor) : Prop :=
  ∃ run c₁ more, s = run ++ more
    ∧ (∀ n, c.rest.length < n → readQuotedRun double n c = .ok (run, c₁))
    ∧ ∀ n, c.rest.length ≤ n → readQuotedRest double n c₁ = .ok (more, c')

theorem Splits.readQuotedBody_eq (h : Splits double c s c') {n : Nat} (hn : c.rest.length < n) :
    readQuotedBody double n c = .ok (s, c') := by
  obtain ⟨run, c₁, more, rfl, hrun, hmore⟩ := h
  obtain ⟨n, rfl⟩ := Nat.exists_eq_add_of_lt hn
  rw [readQuotedBody_succ, hrun _ (Nat.lt_succ_self _)]
  show (readQuotedRest double _ c₁ >>= _) = _
  rw [hmore _ (Nat.le_add_right _ _)]
  rfl

/-- In front of a run, nothing of it is read. -/
theorem splits_of_run_nil (hrun : ∀ n, 0 < n → readQuotedRun double n c = .ok ([], c))
    (hrest : ∀ n, c.rest.length ≤ n → readQuotedRest double n c = .ok (s, c')) :
    Splits double c s c' :=
  ⟨[], c, s, rfl, fun _ hn => hrun _ (Nat.zero_lt_of_lt hn), hrest⟩

/-- A step of a run puts a text in front of it. -/
theorem Splits.step {c₁ : Cursor} {e : List Char} (h : Splits double c₁ s c')
    (hlt : c₁.rest.length < c.rest.length)
    (hstep : ∀ n, readQuotedRun double (n + 1) c
      = (readQuotedRun double n c₁).map fun r => (e ++ r.1, r.2)) :
    Splits double c (e ++ s) c' := by
  obtain ⟨run, c₂, more, rfl, hrun, hmore⟩ := h
  refine ⟨e ++ run, c₂, more, (List.append_assoc ..).symm, ?_, ?_⟩
  · intro n hn
    obtain ⟨n, rfl⟩ := Nat.exists_eq_add_of_lt hn
    rw [hstep, hrun _ (by omega)]
    rfl
  · intro n hn
    exact hmore n (by omega)

/-- At the closing quote the scalar ends. -/
theorem Splits.close {rest : List Char} (hc : c.rest = quote double :: rest)
    (hrest : double = false → rest.head? ≠ some '\'') : Splits double c [] c.next := by
  apply splits_of_run_nil
  · intro n hn
    obtain ⟨n, rfl⟩ := Nat.exists_eq_succ_of_ne_zero (Nat.ne_of_gt hn)
    rw [readQuotedRun, hc]
    cases double with
    | true => rfl
    | false =>
      have hhead : (rest.head? == some '\'') = false := by simpa using hrest rfl
      simp [quote, hhead]
      rfl
  · intro n _
    have hsees : c.sees (quote double) = true := by simp [Cursor.sees, Cursor.peek, hc]
    rw [readQuotedRest, if_pos hsees]

/-- At a gap a run ends, and another one starts behind it. -/
theorem Splits.gap {c₁ : Cursor} {ch : Char} {rest g : List Char} (h : Splits double c₁ s c')
    (hc : c.rest = ch :: rest) (hgap : isGap ch = true) (hg : readQuotedGap c = .ok (g, c₁))
    (hlt : c₁.rest.length < c.rest.length) : Splits double c (g ++ s) c' := by
  apply splits_of_run_nil
  · intro n hn
    obtain ⟨n, rfl⟩ := Nat.exists_eq_succ_of_ne_zero (Nat.ne_of_gt hn)
    have hdouble : ch ≠ '"' := by rintro rfl; exact absurd hgap (by decide)
    have hsingle : ch ≠ '\'' := by rintro rfl; exact absurd hgap (by decide)
    have hescape : ch ≠ '\\' := by rintro rfl; exact absurd hgap (by decide)
    rw [readQuotedRun, hc]
    simp [hdouble, hsingle, hescape, hgap]
    rfl
  · intro n hn
    have hquote : ch ≠ quote double := by
      rintro rfl
      revert hgap
      cases double <;> decide
    have hsees : ¬ c.sees (quote double) = true := by
      simpa [Cursor.sees, Cursor.peek, hc] using hquote
    rw [readQuotedRest, if_neg hsees, hg]
    show (readQuotedBody double n c₁ >>= _) = _
    rw [h.readQuotedBody_eq (by omega)]
    rfl

theorem splits (h : ReadsTo double c s c') : Splits double c s c' := by
  induction h with
  | close hc hrest => exact Splits.close hc hrest
  | @char c c' ch rest s hc hgap hquote hescape h ih =>
    have hnext := c.rest_next_of_cons hc
    apply ih.step (e := [ch]) (by rw [hnext, hc]; exact Nat.lt_succ_self _)
    intro n
    rw [readQuotedRun, hc]
    cases double with
    | true =>
      have hquote' : ch ≠ '"' := hquote
      simp [hquote', hescape rfl, hgap]
      rfl
    | false =>
      have hquote' : ch ≠ '\'' := hquote
      simp [hquote', hgap]
      rfl
  | @doubled c c' rest s hdouble hc h ih =>
    subst hdouble
    have hlt : (c.skip 2).rest.length < c.rest.length := by
      rw [c.rest_skip, hc, List.length_drop, List.length_cons]
      omega
    apply ih.step (e := ['\'']) hlt
    intro n
    rw [readQuotedRun, hc]
    simp
    rfl
  | @escape c c₁ c' rest e s hdouble hc he hlt h ih =>
    subst hdouble
    apply ih.step hlt
    intro n
    rw [readQuotedRun, hc]
    simp [he]
    rfl
  | gap hc hgap hg hlt h ih => exact ih.gap hc hgap hg hlt

/-- Between quotes, a text is read as what it reads to. -/
theorem readQuoted_eq (h : ReadsTo double c.next s c') : readQuoted double c = .ok (s, c') := by
  refine h.splits.readQuotedBody_eq ?_
  rw [c.rest_next, List.length_tail]
  omega

end ReadsTo

/-! ## Gaps -/

variable {c : Cursor} {rest : List Char}

/-- Blanks in front of a text are read as they stand. -/
theorem readQuotedGap_blanks {n : Nat} (hc : c.rest = List.replicate n ' ' ++ rest)
    (hrest : atGap rest = false) :
    ∃ c', readQuotedGap c = .ok (List.replicate n ' ', c') ∧ c'.rest = rest := by
  obtain ⟨ch, tail, rfl, hspace, hbreak⟩ := exists_cons_of_atGap hrest
  have hblank : ∀ a ∈ List.replicate n ' ', isSpace a = true := by
    intro a ha
    rw [(List.mem_replicate.1 ha).2]
    rfl
  have htake : c.rest.takeWhile isSpace = List.replicate n ' ' := by
    rw [hc, List.takeWhile_append_of_pos hblank, List.takeWhile_cons_of_neg (by simp [hspace]),
      List.append_nil]
  have hleft : (c.skip n).rest = ch :: tail := by
    rw [c.rest_skip, hc]
    exact List.drop_left' (List.length_replicate ..)
  refine ⟨c.skip n, ?_, hleft⟩
  have hend : (c.skip n).lineEnd? = none := by
    rw [Cursor.lineEnd?_eq_none_iff, hleft]
    exact hbreak
  simp [readQuotedGap, Cursor.takeWhile, htake, hend, hleft]
  rfl

/-- A line end between quotes that is kept when it is read: not the next-line control. -/
def isKept (ch : Char) : Bool := Writing.isLineEnd ch && ch != '\x85'

theorem isBreak_of_isKept {ch : Char} (h : isKept ch = true) : isBreak ch = true := by
  simp only [isKept, Writing.isLineEnd, Bool.and_eq_true] at h
  exact h.1.1

theorem lineEnd?_of_isKept {ch : Char} (hc : c.rest = ch :: rest) (hch : isKept ch = true) :
    c.lineEnd? = some (ch, c.next) := by
  simp only [isKept, Writing.isLineEnd, Bool.and_eq_true, bne_iff_ne] at hch
  obtain ⟨⟨hbreak, hreturn⟩, hnext⟩ := hch
  rw [Cursor.lineEnd?_of_isBreak c hc hbreak hreturn]
  simp only [isBreak, Bool.or_eq_true, beq_iff_eq, hreturn, hnext, or_false] at hbreak
  rcases hbreak with (rfl | rfl) | rfl <;> rfl

/-- Line ends in front of an indented line are read as they stand. -/
theorem readLineEnds_of_isKept {bs : List Char} (hbs : ∀ b ∈ bs, isKept b = true)
    (hc : c.rest = bs ++ ' ' :: ' ' :: rest) (hrest : atGap rest = false) {n : Nat}
    (hn : bs.length < n) :
    ∃ c', readLineEnds n c = .ok (bs, c') ∧ c'.rest = rest := by
  induction bs generalizing c n with
  | nil =>
    obtain ⟨n, rfl⟩ := Nat.exists_eq_succ_of_ne_zero (Nat.ne_of_gt hn)
    have hmark : atDocumentMark c.rest = false := by
      rw [hc]
      exact atDocumentMark_of_isGap (by decide) _
    obtain ⟨ch, tail, rfl, hspace, hbreak⟩ := exists_cons_of_atGap hrest
    have hleft : (c.dropWhile isSpace).rest = ch :: tail := by
      have hblank : isSpace ' ' = true := rfl
      rw [c.rest_dropWhile, hc]
      simp [hblank, hspace]
    refine ⟨c.dropWhile isSpace, ?_, hleft⟩
    have hend : (c.dropWhile isSpace).lineEnd? = none := by
      rw [Cursor.lineEnd?_eq_none_iff, hleft]
      exact hbreak
    rw [readLineEnds, hmark]
    simp only [hend]
    rfl
  | cons b bs ih =>
    obtain ⟨n, rfl⟩ := Nat.exists_eq_succ_of_ne_zero (Nat.ne_of_gt (Nat.zero_lt_of_lt hn))
    have hb := hbs b (List.mem_cons_self ..)
    have hbreak := isBreak_of_isKept hb
    have hmark : atDocumentMark c.rest = false := by
      rw [hc]
      exact atDocumentMark_of_isGap (by simp [isGap, hbreak]) _
    have hstay : c.dropWhile isSpace = c := by
      apply c.dropWhile_eq_self
      rw [hc]
      exact isSpace_of_isBreak hbreak
    obtain ⟨c', hread, hleft⟩ := ih (fun a ha => hbs a (List.mem_cons_of_mem _ ha))
      (c.rest_next_of_cons hc) (Nat.lt_of_succ_lt_succ hn)
    refine ⟨c', ?_, hleft⟩
    rw [readLineEnds, hmark]
    simp only [hstay, lineEnd?_of_isKept hc hb, hread]
    rfl

/-- Line ends in front of an indented line are folded. -/
theorem readQuotedGap_of_isKept {first : Char} {others : List Char}
    (hkept : ∀ b ∈ first :: others, isKept b = true)
    (hc : c.rest = first :: others ++ ' ' :: ' ' :: rest) (hrest : atGap rest = false) :
    ∃ c', readQuotedGap c = .ok (foldLineEnds first others, c') ∧ c'.rest = rest := by
  have hfirst := hkept first (List.mem_cons_self ..)
  have hstay : c.takeWhile isSpace = ([], c) := by
    rw [Cursor.takeWhile, hc, List.cons_append,
      List.takeWhile_cons_of_neg (by simp [isSpace_of_isBreak (isBreak_of_isKept hfirst)])]
    rfl
  have hleft : c.next.rest = others ++ ' ' :: ' ' :: rest := c.rest_next_of_cons hc
  obtain ⟨c', hread, hrest'⟩ := @readLineEnds_of_isKept c.next rest others
    (fun a ha => hkept a (List.mem_cons_of_mem _ ha)) hleft hrest
    (c.next.rest.length + 1) (by rw [hleft, List.length_append]; omega)
  refine ⟨c', ?_, hrest'⟩
  simp only [readQuotedGap, hstay, lineEnd?_of_isKept hc hfirst, hread]
  rfl

/-- Line ends that are written between quotes are read as they stood. -/
theorem readQuotedGap_lineEnds {bs : List Char} (hne : bs ≠ []) (hbs : ∀ b ∈ bs, isKept b = true)
    (hc : c.rest = Writing.writeLineEnds bs ++ rest) (hrest : atGap rest = false) :
    ∃ c', readQuotedGap c = .ok (bs, c') ∧ c'.rest = rest := by
  obtain ⟨b, bs, rfl⟩ := List.exists_cons_of_ne_nil hne
  by_cases hb : b = '\n'
  · subst hb
    have hkept : ∀ a ∈ '\n' :: '\n' :: bs, isKept a = true :=
      List.forall_mem_cons.2 ⟨rfl, hbs⟩
    have hc' : c.rest = '\n' :: '\n' :: bs ++ ' ' :: ' ' :: rest := by
      simp [hc, Writing.writeLineEnds]
    exact readQuotedGap_of_isKept hkept hc' hrest
  · have hc' : c.rest = b :: bs ++ ' ' :: ' ' :: rest := by
      simp [hc, Writing.writeLineEnds, hb]
    have hfold : foldLineEnds b bs = b :: bs := if_pos hb
    exact hfold ▸ readQuotedGap_of_isKept hbs hc' hrest

/-- A line that was broken at a blank is read with the blank. -/
theorem readQuotedGap_newLine (hc : c.rest = Writing.newLine ++ rest)
    (hrest : atGap rest = false) :
    ∃ c', readQuotedGap c = .ok ([' '], c') ∧ c'.rest = rest :=
  @readQuotedGap_of_isKept c rest '\n' [] (List.forall_mem_singleton.mpr rfl) hc hrest

/-! ## Texts inside quotes -/

/-- Wherever the text `body` stands inside quotes, it reads as `s`, and `rest` is left after the
closing quote. -/
def Reads (double : Bool) (body s rest : List Char) : Prop :=
  ∀ c : Cursor, c.rest = body → ∃ c', ReadsTo double c s c' ∧ c'.rest = rest

namespace Reads

variable {double : Bool} {body s rest : List Char}

theorem close (hrest : double = false → rest.head? ≠ some '\'') :
    Reads double (quote double :: rest) [] rest :=
  fun c hc => ⟨c.next, .close hc hrest, c.rest_next_of_cons hc⟩

theorem char {ch : Char} (h : Reads double body s rest) (hgap : isGap ch = false)
    (hquote : ch ≠ quote double) (hescape : double = true → ch ≠ '\\') :
    Reads double (ch :: body) (ch :: s) rest := by
  intro c hc
  obtain ⟨c', hread, hrest⟩ := h c.next (c.rest_next_of_cons hc)
  exact ⟨c', .char hc hgap hquote hescape hread, hrest⟩

theorem doubled (h : Reads false body s rest) :
    Reads false ('\'' :: '\'' :: body) ('\'' :: s) rest := by
  intro c hc
  obtain ⟨c', hread, hrest⟩ := h (c.skip 2) (by rw [c.rest_skip, hc]; rfl)
  exact ⟨c', .doubled rfl hc hread, hrest⟩

/-- A gap reads as what it is folded to. -/
theorem gap {ch : Char} {tail g : List Char} (h : Reads double body s rest)
    (hgap : isGap ch = true)
    (hg : ∀ c : Cursor, c.rest = ch :: tail ++ body →
      ∃ c', readQuotedGap c = .ok (g, c') ∧ c'.rest = body) :
    Reads double (ch :: tail ++ body) (g ++ s) rest := by
  intro c hc
  obtain ⟨c₁, hread, hleft⟩ := hg c hc
  obtain ⟨c', hmore, hrest⟩ := h c₁ hleft
  refine ⟨c', .gap hc hgap hread ?_ hmore, hrest⟩
  rw [hc, hleft, List.length_append, List.length_cons]
  omega

theorem blanks {n : Nat} (h : Reads double body s rest) (hbody : atGap body = false) :
    Reads double (List.replicate n ' ' ++ body) (List.replicate n ' ' ++ s) rest := by
  cases n with
  | zero => exact h
  | succ n =>
    exact h.gap (by decide) fun c hc => readQuotedGap_blanks (n := n + 1) hc hbody

theorem newLine (h : Reads double body s rest) (hbody : atGap body = false) :
    Reads double (Writing.newLine ++ body) (' ' :: s) rest :=
  h.gap (by decide) fun _ hc => readQuotedGap_newLine hc hbody

theorem lineEnds {bs : List Char} (h : Reads double body s rest) (hbody : atGap body = false)
    (hne : bs ≠ []) (hbs : ∀ b ∈ bs, isKept b = true) :
    Reads double (Writing.writeLineEnds bs ++ body) (bs ++ s) rest := by
  obtain ⟨ch, tail, hwritten, hgap⟩ : ∃ ch tail, Writing.writeLineEnds bs = ch :: tail
      ∧ isGap ch = true := by
    obtain ⟨b, bs, rfl⟩ := List.exists_cons_of_ne_nil hne
    by_cases hb : b = '\n'
    · exact ⟨'\n', b :: bs ++ [' ', ' '], by simp [Writing.writeLineEnds, hb], rfl⟩
    · have hbreak := isBreak_of_isKept (hbs b (List.mem_cons_self ..))
      exact ⟨b, bs ++ [' ', ' '], by simp [Writing.writeLineEnds, hb], by simp [isGap, hbreak]⟩
  rw [hwritten]
  exact h.gap hgap fun c hc => readQuotedGap_lineEnds hne hbs (hwritten ▸ hc) hbody

/-- Between single quotes, quotes are written twice. -/
theorem text {t : List Char} (h : Reads false body s rest) (ht : ∀ ch ∈ t, isGap ch = false) :
    Reads false (Writing.doubleQuotes t ++ body) (t ++ s) rest := by
  induction t with
  | nil => exact h
  | cons ch t ih =>
    obtain ⟨hch, hmore⟩ := List.forall_mem_cons.1 ht
    by_cases hquote : ch = '\''
    · subst hquote
      exact (ih hmore).doubled
    · have hwritten : Writing.doubleQuotes (ch :: t) = ch :: Writing.doubleQuotes t := by
        simp [Writing.doubleQuotes, hquote]
      rw [hwritten]
      exact (ih hmore).char hch hquote nofun

end Reads

namespace Writing

/-! ## Between single quotes -/

/-- A character that is written without an escape is a gap only if it is a blank or a line
end. -/
theorem isGap_of_isDirect {ch : Char} (h : isDirect ch = true) (hkind : kindOf ch = .text) :
    isGap ch = false := by
  have htab : ch ≠ '\t' := by rintro rfl; exact absurd h (by decide)
  have hreturn : ch ≠ '\r' := by rintro rfl; exact absurd h (by decide)
  have hblank : ch ≠ ' ' := by rintro rfl; exact absurd hkind (by decide)
  have hend : isLineEnd ch = false := by
    cases hend : isLineEnd ch with
    | false => rfl
    | true => simp [kindOf, hblank, hend] at hkind
  have hbreak : isBreak ch = false := by simpa [isLineEnd, hreturn] using hend
  simp [isGap, isSpace, htab, hblank, hbreak]

theorem isLineEnd_of_kindOf {ch : Char} (h : kindOf ch = .lineEnd) : isLineEnd ch = true := by
  simp only [kindOf] at h
  split at h
  · cases h
  · split at h
    · assumption
    · cases h

variable {rs : List Run} {rest : List Char}

/-- A written text starts with no gap if its first run is text. -/
theorem atGap_writeRuns (htext : ∀ r ∈ rs.head?, r.kind = .text) (hrs : ∀ r ∈ rs, r.IsUniform)
    (hdirect : ∀ r ∈ rs, ∀ ch ∈ r.chars, isDirect ch = true) (isFirst : Bool) (column : Nat) :
    atGap (writeRuns doubleQuotes isFirst column rs ++ '\'' :: rest) = false := by
  rcases rs with _ | ⟨_ | _ | t, rs⟩
  · rfl
  · cases htext _ rfl
  · cases htext _ rfl
  · obtain ⟨hne, hkind⟩ := hrs _ (List.mem_cons_self ..)
    obtain ⟨ch, t, rfl⟩ := List.exists_cons_of_ne_nil hne
    have hch := isGap_of_isDirect (hdirect _ (List.mem_cons_self ..) ch (List.mem_cons_self ..))
      (hkind ch (List.mem_cons_self ..))
    by_cases hquote : ch = '\''
    · subst hquote
      rfl
    · simpa [writeRuns, doubleQuotes, hquote, atGap] using hch

/-- Runs between single quotes are read as they stood. -/
theorem reads_writeRuns (hchain : rs.IsChain Run.AreSeparate) (hrs : ∀ r ∈ rs, r.IsUniform)
    (hdirect : ∀ r ∈ rs, ∀ ch ∈ r.chars, isDirect ch = true ∧ ch ≠ '\x85')
    (hrest : rest.head? ≠ some '\'') (isFirst : Bool) (column : Nat) :
    Reads false (writeRuns doubleQuotes isFirst column rs ++ '\'' :: rest) (rs.flatMap Run.chars)
      rest := by
  induction rs generalizing isFirst column with
  | nil => exact .close fun _ => hrest
  | cons r rs ih =>
    obtain ⟨hnext, hchain⟩ := List.isChain_cons.1 hchain
    obtain ⟨hr, hrs⟩ := List.forall_mem_cons.1 hrs
    obtain ⟨hd, hdirect⟩ := List.forall_mem_cons.1 hdirect
    have hmore := ih hchain hrs hdirect
    have hgap : r.kind ≠ .text → ∀ isFirst column,
        atGap (writeRuns doubleQuotes isFirst column rs ++ '\'' :: rest) = false := by
      intro hkind
      refine atGap_writeRuns (fun a ha => ?_) hrs fun a ha ch hch => (hdirect a ha ch hch).1
      by_contra hne
      exact hkind ((hnext a ha).2 hne)
    rw [List.flatMap_cons]
    cases r with
    | text t =>
      rw [writeRuns, List.append_assoc]
      exact (hmore _ _).text fun ch hch => isGap_of_isDirect (hd ch hch).1 (hr.2 ch hch)
    | lineEnds bs =>
      rw [writeRuns, List.append_assoc]
      refine (hmore _ _).lineEnds (hgap nofun _ _) hr.1 fun b hb => ?_
      simp [isKept, isLineEnd_of_kindOf (hr.2 b hb), (hd b hb).2]
    | blanks n =>
      rw [writeRuns]
      split
      · next hfold =>
        have hn : n = 1 := by
          simp only [Bool.and_eq_true, beq_iff_eq] at hfold
          exact hfold.1.1.1
        subst hn
        rw [List.append_assoc]
        exact (hmore _ _).newLine (hgap nofun _ _)
      · rw [List.append_assoc]
        exact (hmore _ _).blanks (hgap nofun _ _)

/-- **Single quotes.** A text that needs no escapes and has no next-line control is read back from
between single quotes. -/
theorem readQuoted_singleQuoted {s : List Char} (hescapes : needsEscapes s = false)
    (hnext : '\x85' ∉ s) (hrest : rest.head? ≠ some '\'') {column : Nat} {c : Cursor}
    (hc : c.rest = singleQuoted column s ++ rest) :
    ∃ c', readQuoted false c = .ok (s, c') ∧ c'.rest = rest := by
  simp only [needsEscapes, Bool.or_eq_false_iff, Bool.not_eq_false', List.all_eq_true] at hescapes
  obtain ⟨⟨hdirect, hbefore⟩, hbehind⟩ := hescapes
  have hmixed : hasMixedGap s = false := Bool.or_eq_false_iff.2 ⟨hbefore, hbehind⟩
  have hchars : ∀ r ∈ runs s, ∀ ch ∈ r.chars, isDirect ch = true ∧ ch ≠ '\x85' := by
    intro r hr ch hch
    have hmem : ch ∈ s := flatMap_chars_runs s ▸ List.mem_flatMap.2 ⟨r, hr, hch⟩
    exact ⟨hdirect ch hmem, fun heq => hnext (heq ▸ hmem)⟩
  have hreads := reads_writeRuns (isChain_runs hmixed) (isUniform_of_mem_runs s) hchars hrest true
    (column + 1)
  rw [flatMap_chars_runs] at hreads
  obtain ⟨c', hread, hleft⟩ := hreads c.next (by
    rw [c.rest_next, hc]
    simp [singleQuoted])
  exact ⟨c', hread.readQuoted_eq, hleft⟩

end Writing

end ThreatTree.Yaml
