import ThreatTree.Proofs.Yaml.Quoted
import ThreatTree.Yaml.Plain

/-!
# Plain texts

A text that is written plain is read back: each of its runs stops at the next gap, since no colon
stands in front of one, and each gap is followed by a run, since no hash sign stands behind one.
The scalar ends at the line ends behind it, because the line after them is not indented.
-/

namespace ThreatTree.Yaml

namespace Cursor

variable {c : Cursor} {rest : List Char}

theorem column_next_of_isBreak {ch : Char} (hc : c.rest = ch :: rest) (hbreak : isBreak ch = true)
    (hreturn : ch ≠ '\r') : c.next.column = 0 := by
  obtain ⟨_, index, line, column⟩ := c
  subst hc
  simp [next, hbreak, hreturn]

theorem column_skip_blanks {n : Nat} (hc : c.rest = List.replicate n ' ' ++ rest) :
    (c.skip n).column = c.column + n := by
  induction n generalizing c with
  | zero => rfl
  | succ n ih =>
    rw [skip, ih (c.rest_next_of_cons hc)]
    obtain ⟨_, index, line, column⟩ := c
    subst hc
    show column + 1 + n = column + (n + 1)
    omega

end Cursor

/-! ## Runs of a plain scalar -/

/-- A run without a colon at its end stops at the next gap. -/
theorem plainRun_append {t rest : List Char} (ht : ∀ ch ∈ t, isGap ch = false)
    (hcolon : t.getLast? ≠ some ':') (hrest : atGap rest = true) :
    plainRun false (t ++ rest) = t.length := by
  induction t with
  | nil =>
    cases rest with
    | nil => rfl
    | cons ch rest => simp [plainRun, show isGap ch = true from hrest]
  | cons ch t ih =>
    obtain ⟨hch, ht⟩ := List.forall_mem_cons.1 ht
    cases t with
    | nil =>
      have hne : ch ≠ ':' := fun heq => hcolon (congrArg some heq)
      have hend := ih nofun nofun
      simp only [List.nil_append] at hend
      simp [plainRun, hch, hne, hend]
    | cons d t =>
      have hd := ht d (List.mem_cons_self ..)
      have hmore := ih ht (by simpa using hcolon)
      simp only [List.cons_append] at hmore ⊢
      rw [plainRun]
      simp [hch, endsAfterColon, hd, hmore]

/-! ## Gaps of a plain scalar -/

variable {c : Cursor} {rest : List Char}

theorem takeWhile_blanks {n : Nat} (hc : c.rest = List.replicate n ' ' ++ rest)
    (hrest : rest.head? ≠ some ' ') :
    c.takeWhile (· == ' ') = (List.replicate n ' ', c.skip n) := by
  have hblank : ∀ a ∈ List.replicate n ' ', (a == ' ') = true := by
    intro a ha
    rw [(List.mem_replicate.1 ha).2]
    rfl
  have hstop : rest.takeWhile (· == ' ') = [] := by
    cases rest with
    | nil => rfl
    | cons ch rest => exact List.takeWhile_cons_of_neg (by simpa using hrest)
  rw [Cursor.takeWhile, hc, List.takeWhile_append_of_pos hblank, hstop, List.append_nil,
    List.length_replicate]

theorem head?_ne_blank (hrest : atGap rest = false) : rest.head? ≠ some ' ' := by
  intro heq
  obtain ⟨ch, tail, rfl, hspace, -⟩ := exists_cons_of_atGap hrest
  obtain rfl := Option.some.inj heq
  cases hspace

theorem plainGap_blanks {n : Nat} (hc : c.rest = List.replicate n ' ' ++ rest)
    (hrest : atGap rest = false) :
    plainGap c = (List.replicate n ' ', false, c.skip n) := by
  have hleft : (c.skip n).rest = rest := by
    rw [c.rest_skip, hc]
    exact List.drop_left' (List.length_replicate ..)
  have hend := (c.skip n).lineEnd?_of_atGap (hleft ▸ hrest)
  simp [plainGap, takeWhile_blanks hc (head?_ne_blank hrest), hend]

theorem plainLineEnds_blanks {n k : Nat} (hc : c.rest = List.replicate k ' ' ++ rest)
    (hrest : atGap rest = false) (hmark : atDocumentMark c.rest = false) :
    plainLineEnds (n + 1) c = (some [], c.skip k) := by
  have hleft : (c.skip k).rest = rest := by
    rw [c.rest_skip, hc]
    exact List.drop_left' (List.length_replicate ..)
  have hend := (c.skip k).lineEnd?_of_atGap (hleft ▸ hrest)
  rw [plainLineEnds, hmark]
  simp [Cursor.dropWhile, takeWhile_blanks hc (head?_ne_blank hrest), hend]

theorem lineEnd?_of_feed (hc : c.rest = '\n' :: rest) : c.lineEnd? = some ('\n', c.next) :=
  lineEnd?_of_isKept hc rfl

/-- A line that was broken at a blank goes on with the blank. -/
theorem plainGap_newLine (hc : c.rest = Writing.newLine ++ rest) (hrest : atGap rest = false) :
    plainGap c = ([' '], true, c.skip 3) := by
  have hfeed : c.rest = '\n' :: ' ' :: ' ' :: rest := hc
  have hnext : c.next.rest = List.replicate 2 ' ' ++ rest := c.rest_next_of_cons hfeed
  have hmark : atDocumentMark c.next.rest = false := by
    rw [hnext]
    exact atDocumentMark_of_isGap (by decide) _
  simp only [plainGap, @takeWhile_blanks c _ 0 hfeed nofun, Cursor.skip, lineEnd?_of_feed hfeed,
    plainLineEnds_blanks hnext hrest hmark]
  rfl

/-- Behind an empty line, a scalar has ended. -/
theorem plainGap_emptyLine (hc : c.rest = '\n' :: '\n' :: rest) (hrest : atGap rest = false)
    (hmark : atDocumentMark rest = false) : plainGap c = (['\n'], true, c.skip 2) := by
  have hnext : c.next.rest = '\n' :: rest := c.rest_next_of_cons hc
  have hlast : c.next.next.rest = List.replicate 0 ' ' ++ rest := c.next.rest_next_of_cons hnext
  have hstay : c.next.dropWhile (· == ' ') = c.next :=
    c.next.dropWhile_eq_self (by rw [hnext]; rfl)
  have hbreak : atDocumentMark c.next.rest = false := by
    rw [hnext]
    exact atDocumentMark_of_isGap (by decide) _
  have hmore : plainLineEnds (c.next.rest.length + 1) c.next = (some ['\n'], c.next.next) := by
    rw [plainLineEnds, hbreak, hstay]
    simp only [lineEnd?_of_feed hnext, Bool.false_eq_true, if_false]
    rw [hnext, List.length_cons, plainLineEnds_blanks hlast hrest (by rw [hlast]; exact hmark)]
    rfl
  simp only [plainGap, @takeWhile_blanks c _ 0 hc nofun, Cursor.skip, lineEnd?_of_feed hc, hmore]
  rfl

/-! ## Words -/

/-- What stands between two gaps of a plain scalar. -/
structure IsPlainWord (t : List Char) : Prop where
  ne_nil : t ≠ []
  not_gap : ∀ ch ∈ t, isGap ch = false
  head : t.head? ≠ some '#'
  last : t.getLast? ≠ some ':'

namespace Writing

/-- Words with blanks between them. -/
inductive ArePlain : List Run → Prop where
  | last {t : List Char} (ht : IsPlainWord t) : ArePlain [.text t]
  | cons {t : List Char} {n : Nat} {rs : List Run} (ht : IsPlainWord t) (hn : 0 < n)
    (h : ArePlain rs) : ArePlain (.text t :: .blanks n :: rs)

variable {rs : List Run}

theorem ArePlain.exists_word (h : ArePlain rs) : ∃ t rs', rs = .text t :: rs' ∧ IsPlainWord t := by
  cases h with
  | last ht => exact ⟨_, _, rfl, ht⟩
  | cons ht => exact ⟨_, _, rfl, ht⟩

theorem ArePlain.exists_head (h : ArePlain rs) (isFirst : Bool) (column : Nat) :
    ∃ ch tail, writeRuns id isFirst column rs = ch :: tail ∧ isGap ch = false ∧ ch ≠ '#' := by
  obtain ⟨t, rs, rfl, ht⟩ := h.exists_word
  obtain ⟨ch, t, rfl⟩ := List.exists_cons_of_ne_nil ht.ne_nil
  exact ⟨ch, _, rfl, ht.not_gap ch (List.mem_cons_self ..), fun heq => ht.head (congrArg some heq)⟩

theorem writeRuns_text (isFirst : Bool) (column : Nat) (t : List Char) (rs : List Run) :
    writeRuns id isFirst column (.text t :: rs)
      = t ++ writeRuns id false (column + t.length) rs := by
  rw [writeRuns]
  rfl

/-- Blanks are written as they stand, or as a line end. -/
theorem writeRuns_blanks (n column : Nat) (rs : List Run) : ∃ column',
    (n = 1 ∧ writeRuns id false column (.blanks n :: rs)
        = newLine ++ writeRuns id false column' rs)
      ∨ writeRuns id false column (.blanks n :: rs)
        = List.replicate n ' ' ++ writeRuns id false column' rs := by
  rw [writeRuns]
  split
  · next h =>
    simp only [Bool.and_eq_true, beq_iff_eq] at h
    exact ⟨_, .inl ⟨h.1.1.1, rfl⟩⟩
  · exact ⟨_, .inr rfl⟩

theorem atGap_writeRuns_blanks {n : Nat} (hn : 0 < n) (column : Nat) (rs : List Run)
    (rest : List Char) : atGap (writeRuns id false column (.blanks n :: rs) ++ rest) = true := by
  obtain ⟨column', ⟨-, hwritten⟩ | hwritten⟩ := writeRuns_blanks n column rs
  · rw [hwritten]
    rfl
  · obtain ⟨n, rfl⟩ := Nat.exists_eq_succ_of_ne_zero (Nat.ne_of_gt hn)
    rw [hwritten]
    rfl

end Writing

open Writing

/-- The gap between two words is read as the blanks that stood there. -/
theorem exists_plainGap {n column : Nat} {rs : List Run} (hn : 0 < n)
    (hc : c.rest = writeRuns id false column (.blanks n :: rs) ++ rest)
    (hmore : ∀ column, atGap (writeRuns id false column rs ++ rest) = false) :
    ∃ broke c' column', plainGap c = (List.replicate n ' ', broke, c') ∧ 1 ≤ c'.column
      ∧ c'.rest.length < c.rest.length
      ∧ c'.rest = writeRuns id false column' rs ++ rest := by
  obtain ⟨column', ⟨rfl, hwritten⟩ | hwritten⟩ := writeRuns_blanks n column rs
  · rw [hwritten, List.append_assoc] at hc
    have hfeed : c.rest
        = '\n' :: (List.replicate 2 ' ' ++ (writeRuns id false column' rs ++ rest)) := hc
    have hcolumn := Cursor.column_skip_blanks (c.rest_next_of_cons hfeed)
    have hleft : (c.skip 3).rest = writeRuns id false column' rs ++ rest := by
      rw [c.rest_skip, hc]
      rfl
    refine ⟨true, c.skip 3, column', plainGap_newLine hc (hmore _), ?_, ?_, hleft⟩
    · exact Nat.le_trans (by decide) (hcolumn ▸ Nat.le_add_left 2 _)
    · rw [hleft, hc]
      simp [newLine]
      omega
  · rw [hwritten, List.append_assoc] at hc
    have hleft : (c.skip n).rest = writeRuns id false column' rs ++ rest := by
      rw [c.rest_skip, hc]
      exact List.drop_left' (List.length_replicate ..)
    refine ⟨false, c.skip n, column', plainGap_blanks hc (hmore _), ?_, ?_, hleft⟩
    · rw [Cursor.column_skip_blanks hc]
      omega
    · rw [hleft, hc]
      simpa using hn

/-- A word, the gap behind it, and what follows if the scalar goes on. -/
theorem plainBody_word {t : List Char} (ht : IsPlainWord t) (hc : c.rest = t ++ rest)
    (hrest : atGap rest = true) (n : Nat) (gap : List Char) (broke : Bool) :
    plainBody false 1 (n + 1) gap broke c =
      let g := plainGap (c.skip t.length)
      if g.1.isEmpty || g.2.2.sees '#' || decide (g.2.2.column < 1) then (gap ++ t, g.2.1, g.2.2)
      else
        let more := plainBody false 1 n g.1 g.2.1 g.2.2
        (gap ++ t ++ more.1, more.2) := by
  obtain ⟨ch, tail, htail⟩ := List.exists_cons_of_ne_nil ht.ne_nil
  have hsize : plainRun false c.rest = t.length :=
    hc ▸ plainRun_append ht.not_gap ht.last hrest
  have hhash : c.sees '#' = false := by
    have hhead := ht.head
    rw [htail] at hhead
    simpa [Cursor.sees, Cursor.peek, hc, htail] using hhead
  have hpos : (t.length == 0) = false := by simp [ht.ne_nil]
  have htake : c.rest.take t.length = t := by
    rw [hc]
    exact List.take_left
  rw [plainBody, hsize, hhash, hpos, htake]
  simp

/-- Words and the blanks between them are read as they stood, up to an empty line. -/
theorem plainBody_writeRuns {rs : List Run} (h : ArePlain rs) (hrest : atGap rest = false)
    (hmark : atDocumentMark rest = false) {isFirst broke : Bool} {column n : Nat}
    {gap : List Char} (hc : c.rest = writeRuns id isFirst column rs ++ '\n' :: '\n' :: rest)
    (hn : c.rest.length < n) :
    ∃ c₁ : Cursor, c₁.rest = '\n' :: '\n' :: rest
      ∧ plainBody false 1 n gap broke c = (gap ++ rs.flatMap Run.chars, true, c₁.skip 2) := by
  induction h generalizing c isFirst broke column n gap with
  | @last t ht =>
    obtain ⟨n, rfl⟩ := Nat.exists_eq_succ_of_ne_zero (Nat.ne_of_gt (Nat.zero_lt_of_lt hn))
    have hc' : c.rest = t ++ '\n' :: '\n' :: rest := by simpa [writeRuns] using hc
    have hleft : (c.skip t.length).rest = '\n' :: '\n' :: rest := by
      rw [c.rest_skip, hc']
      exact List.drop_left
    have hcolumn : ((c.skip t.length).skip 2).column = 0 :=
      Cursor.column_next_of_isBreak ((c.skip t.length).rest_next_of_cons hleft) rfl (by decide)
    refine ⟨c.skip t.length, hleft, ?_⟩
    rw [plainBody_word ht hc' rfl, plainGap_emptyLine hleft hrest hmark]
    simp [hcolumn, Run.chars]
  | @cons t k rs ht hk h ih =>
    obtain ⟨n, rfl⟩ := Nat.exists_eq_succ_of_ne_zero (Nat.ne_of_gt (Nat.zero_lt_of_lt hn))
    have hhead : ∀ column, ∃ ch tail, writeRuns id false column rs ++ '\n' :: '\n' :: rest
        = ch :: tail ∧ isGap ch = false ∧ ch ≠ '#' := by
      intro column
      obtain ⟨ch, tail, hwritten, hch⟩ := h.exists_head false column
      exact ⟨ch, _, by rw [hwritten]; rfl, hch⟩
    have hc' : c.rest = t ++ (writeRuns id false (column + t.length) (.blanks k :: rs)
        ++ '\n' :: '\n' :: rest) := by
      rw [hc, writeRuns_text, List.append_assoc]
    have hleft : (c.skip t.length).rest = writeRuns id false (column + t.length) (.blanks k :: rs)
        ++ '\n' :: '\n' :: rest := by
      rw [c.rest_skip, hc']
      exact List.drop_left
    obtain ⟨broke', c₂, column', hread, hcolumn, hlt, hc₂⟩ :=
      exists_plainGap hk hleft fun column => by
      obtain ⟨ch, tail, hwritten, hch, -⟩ := hhead column
      rw [hwritten]
      exact hch
    have hhash : c₂.sees '#' = false := by
      obtain ⟨ch, tail, hwritten, -, hch⟩ := hhead column'
      simpa [Cursor.sees, Cursor.peek, hc₂, hwritten] using hch
    have hshort : (c.skip t.length).rest.length ≤ c.rest.length := by
      rw [c.rest_skip, List.length_drop]
      omega
    obtain ⟨c₁, hrest₁, hmore⟩ :=
      @ih c₂ false broke' column' n (List.replicate k ' ') hc₂ (by omega)
    refine ⟨c₁, hrest₁, ?_⟩
    have hblanks : (List.replicate k ' ').isEmpty = false := by
      obtain ⟨k, rfl⟩ := Nat.exists_eq_succ_of_ne_zero (Nat.ne_of_gt hk)
      rfl
    rw [plainBody_word ht hc' (atGap_writeRuns_blanks hk _ _ _), hread]
    simp only [hblanks, hhash, Nat.not_lt.2 hcolumn, hmore]
    simp [Run.chars]

/-! ## Texts that are written plain -/

namespace Writing

theorem hasMarkInside_blanks {n : Nat} (hn : 0 < n) {gap : Bool} {s : List Char}
    (h : hasMarkInside gap (List.replicate n ' ' ++ s) = false) : hasMarkInside true s = false := by
  induction n generalizing gap with
  | zero => cases hn
  | succ n ih =>
    have hrest : hasMarkInside true (List.replicate n ' ' ++ s) = false := by
      rw [List.replicate_succ, List.cons_append, hasMarkInside, Bool.or_eq_false_iff] at h
      exact h.2
    rcases n with _ | n
    · exact hrest
    · exact ih (Nat.succ_pos n) hrest

theorem hasMarkInside_word {t : List Char} (hne : t ≠ []) (ht : ∀ ch ∈ t, isGap ch = false)
    {s : List Char} (hs : atGap s = true) {gap : Bool}
    (h : hasMarkInside gap (t ++ s) = false) :
    (gap = true → t.head? ≠ some '#') ∧ t.getLast? ≠ some ':' ∧ hasMarkInside false s = false := by
  induction t generalizing gap with
  | nil => exact absurd rfl hne
  | cons ch t ih =>
    obtain ⟨hch, ht⟩ := List.forall_mem_cons.1 ht
    simp only [List.cons_append, hasMarkInside, Bool.or_eq_false_iff, Bool.and_eq_false_iff,
      beq_eq_false_iff_ne] at h
    obtain ⟨⟨hcolon, hhash⟩, hmore⟩ := h
    rw [hch] at hmore
    have hhead : gap = true → (ch :: t).head? ≠ some '#' := by
      rintro rfl heq
      exact hhash.elim (fun hne => hne (Option.some.inj heq)) nofun
    cases t with
    | nil =>
      refine ⟨hhead, fun heq => ?_, hmore⟩
      exact hcolon.elim (fun hne => hne (Option.some.inj heq)) fun hgap => by simp [hs] at hgap
    | cons d t =>
      obtain ⟨-, hlast, hs⟩ := ih nofun ht hmore
      exact ⟨hhead, by simpa using hlast, hs⟩

/-- Runs of words and blanks, without a mark that ends a plain scalar. -/
theorem arePlain_of_isChain : ∀ {rs : List Run}, rs ≠ [] → rs.IsChain Run.AreSeparate →
    (∀ r ∈ rs, r.IsUniform ∧ r.kind ≠ .lineEnd ∧ ∀ ch ∈ r.chars, isDirect ch = true) →
    (∀ r ∈ rs.head?, r.kind = .text) → (rs.flatMap Run.chars).getLast? ≠ some ' ' →
    hasMarkInside true (rs.flatMap Run.chars) = false → ArePlain rs
  | [], hne, _, _, _, _, _ => absurd rfl hne
  | .blanks _ :: _, _, _, _, hfirst, _, _ => nomatch hfirst _ rfl
  | .lineEnds _ :: _, _, _, _, hfirst, _, _ => nomatch hfirst _ rfl
  | [.text t], _, _, hrs, _, _, hmark => by
    obtain ⟨hr, -, hdirect⟩ := hrs _ (List.mem_singleton_self _)
    have ht := fun ch hch => isGap_of_isDirect (hdirect ch hch) (hr.2 ch hch)
    obtain ⟨hhead, hlast, -⟩ := hasMarkInside_word (t := t) hr.1 ht rfl hmark
    exact .last ⟨hr.1, ht, hhead rfl, hlast⟩
  | .text _ :: .text _ :: _, _, hchain, _, _, _, _ =>
    absurd rfl ((List.isChain_cons_cons.1 hchain).1.1 rfl)
  | .text _ :: .lineEnds _ :: _, _, _, hrs, _, _, _ =>
    absurd rfl (hrs _ (List.mem_cons_of_mem _ (List.mem_cons_self ..))).2.1
  | .text t :: .blanks n :: rs, _, hchain, hrs, _, hlast, hmark => by
    obtain ⟨⟨hr, -, hdirect⟩, hrs⟩ := List.forall_mem_cons.1 hrs
    obtain ⟨⟨hblanks, -⟩, hrs⟩ := List.forall_mem_cons.1 hrs
    obtain ⟨-, hchain⟩ := List.isChain_cons_cons.1 hchain
    obtain ⟨hnext, hchain⟩ := List.isChain_cons.1 hchain
    have hn : 0 < n := by
      rcases n with _ | n
      · exact absurd rfl hblanks.1
      · exact Nat.succ_pos n
    have ht := fun ch hch => isGap_of_isDirect (hdirect ch hch) (hr.2 ch hch)
    have hgap : atGap (List.replicate n ' ' ++ rs.flatMap Run.chars) = true := by
      obtain ⟨n, rfl⟩ := Nat.exists_eq_succ_of_ne_zero (Nat.ne_of_gt hn)
      rfl
    have hparts : (Run.text t :: .blanks n :: rs).flatMap Run.chars
        = t ++ (List.replicate n ' ' ++ rs.flatMap Run.chars) := rfl
    rw [hparts] at hlast hmark
    obtain ⟨hhead, hcolon, hmore⟩ := hasMarkInside_word hr.1 ht hgap hmark
    have hne : rs ≠ [] := by
      rintro rfl
      apply hlast
      obtain ⟨n, rfl⟩ := Nat.exists_eq_succ_of_ne_zero (Nat.ne_of_gt hn)
      simp [List.replicate_succ', List.getLast?_append]
    refine .cons ⟨hr.1, ht, hhead rfl, hcolon⟩ hn (arePlain_of_isChain hne hchain hrs ?_ ?_ ?_)
    · intro a ha
      by_contra hkind
      cases (hnext a ha).2 hkind
    · intro heq
      apply hlast
      rw [List.getLast?_append, List.getLast?_append, heq]
      rfl
    · exact hasMarkInside_blanks hn hmore

/-- A text that can be read plain: no character of it needs an escape or ends a line, it has no
blank at an end, and no mark in it ends a plain scalar. -/
structure IsReadPlain (s : List Char) : Prop where
  ne_nil : s ≠ []
  direct : ∀ ch ∈ s, isDirect ch = true
  line : ∀ ch ∈ s, isLineEnd ch = false
  head : s.head? ≠ some ' '
  last : s.getLast? ≠ some ' '
  mark : hasMarkInside true s = false

theorem hasMixedGap_eq_false {s : List Char} (h : ∀ ch ∈ s, isLineEnd ch = false) :
    hasMixedGap s = false := by
  rw [hasMixedGap]
  induction s with
  | nil => rfl
  | cons a s ih =>
    obtain ⟨ha, hs⟩ := List.forall_mem_cons.1 h
    cases s with
    | nil => rfl
    | cons b s =>
      have hb := hs b (List.mem_cons_self ..)
      have hmore := ih hs
      simpa [hasPair, ha, hb] using hmore

namespace IsReadPlain

variable {s : List Char} (h : IsReadPlain s)
include h

theorem arePlain_runs : ArePlain (runs s) := by
  apply arePlain_of_isChain ?_ (isChain_runs (hasMixedGap_eq_false h.line)) ?_ ?_ ?_ ?_
  · intro hruns
    have hflat := flatMap_chars_runs s
    rw [hruns] at hflat
    exact h.ne_nil hflat.symm
  · intro r hr
    have hmem : ∀ ch ∈ r.chars, ch ∈ s := fun ch hch =>
      flatMap_chars_runs s ▸ List.mem_flatMap.2 ⟨r, hr, hch⟩
    have huniform := isUniform_of_mem_runs s r hr
    refine ⟨huniform, fun hkind => ?_, fun ch hch => h.direct ch (hmem ch hch)⟩
    obtain ⟨ch, hch⟩ := List.exists_mem_of_ne_nil _ huniform.1
    have hend := isLineEnd_of_kindOf ((huniform.2 ch hch).trans hkind)
    rw [h.line ch (hmem ch hch)] at hend
    cases hend
  · intro r hr
    have hkind := kind_head?_runs s
    rw [Option.mem_def.1 hr] at hkind
    obtain ⟨ch, hch, hkind⟩ := Option.map_eq_some_iff.1 hkind.symm
    have hmem := List.mem_of_mem_head? hch
    have hblank : ch ≠ ' ' := fun heq => h.head (heq ▸ hch)
    rw [← hkind]
    simp [kindOf, hblank, h.line ch hmem]
  · rw [flatMap_chars_runs]
    exact h.last
  · rw [flatMap_chars_runs]
    exact h.mark

/-- **Plain texts.** A text that can be read plain is read back in front of an empty line. -/
theorem readPlain_eq {column : Nat} {c : Cursor} {rest : List Char} (hrest : atGap rest = false)
    (hmark : atDocumentMark rest = false) (hc : c.rest = plain column s ++ '\n' :: '\n' :: rest) :
    ∃ c₁ : Cursor, c₁.rest = '\n' :: '\n' :: rest
      ∧ readPlain false 1 c = (s, true, c₁.skip 2) := by
  obtain ⟨c₁, hrest₁, hread⟩ := plainBody_writeRuns h.arePlain_runs hrest hmark hc
    (Nat.lt_succ_self _)
  exact ⟨c₁, hrest₁, by rw [readPlain, hread, flatMap_chars_runs]; rfl⟩

end IsReadPlain

theorem isReadPlain_of_isPlain {s : List Char} (h : isPlain s = true) : IsReadPlain s := by
  simp only [isPlain, needsEscapes, Bool.and_eq_true, Bool.not_eq_true', Bool.or_eq_false_iff,
    Bool.not_eq_false', List.all_eq_true, List.any_eq_false] at h
  obtain ⟨⟨⟨⟨⟨⟨⟨⟨htag, ⟨hdirect, -⟩, -⟩, hline⟩, hhead⟩, hlast⟩, -⟩, -⟩, hstart⟩, hinside⟩ := h
  have hends : ∀ ch ∈ s, isLineEnd ch = false := fun ch hch => Bool.eq_false_iff.2 (hline ch hch)
  cases s with
  | nil => exact absurd htag (by decide)
  | cons ch s =>
    have hblank : ch ≠ ' ' := by simpa [isBlankChar] using hhead
    have hgap : isGap ch = false := by
      refine isGap_of_isDirect (hdirect ch (List.mem_cons_self ..)) ?_
      simp [kindOf, hblank, hends ch (List.mem_cons_self ..)]
    refine ⟨List.cons_ne_nil _ _, hdirect, hends, by simpa using hblank, fun heq => ?_, ?_⟩
    · rw [heq] at hlast
      cases hlast
    · simp only [hasMarkAtStart, Bool.or_eq_false_iff] at hstart
      have hhash : ch ≠ '#' := by
        rintro rfl
        exact absurd hstart.1 (by decide)
      have hcolon : (ch == ':' && atGap s) = false := by
        by_cases heq : ch = ':'
        · simpa [heq] using hstart.2
        · simp [heq]
      rw [hasMarkInside, hcolon, hgap]
      simpa [hhash] using hinside

end Writing

end ThreatTree.Yaml
