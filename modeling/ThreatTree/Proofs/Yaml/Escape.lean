import Mathlib.Data.Nat.Digits.Defs
import ThreatTree.Proofs.Decimal.Digits
import ThreatTree.Proofs.Yaml.Quoted

/-!
# Texts between double quotes

An escape is read as the character that it was written for (`exists_readEscape`): as its letter,
or as the hexadecimal digits of its number. A line that was broken inside quotes is joined again:
the line end after the backslash does not count, and a blank that the text has there stands after
another backslash (`reads_brokenBefore`).

The main statement, `readQuoted_doubleQuoted`, says that every text is read back.
-/

namespace ThreatTree.Yaml

/-! ## Hexadecimal digits -/

theorem digit_of_lt : ∀ d < 16, Text.digitIn? 16 (Nat.digitChar d).toUpper = some d
    ∧ isHexDigit (Nat.digitChar d).toUpper = true := by
  decide

/-- The capitals that write a number in base sixteen are hexadecimal digits with its value. -/
theorem hexValue_toDigits (n : Nat) :
    hexValue ((Nat.toDigits 16 n).map Char.toUpper) = n
      ∧ ((Nat.toDigits 16 n).map Char.toUpper).all isHexDigit = true := by
  let value (c : Char) : Nat := (Text.digitIn? 16 c.toUpper).getD 0
  have hdigits : ∀ c ∈ Nat.toDigits 16 n,
      Text.digitIn? 16 c.toUpper = some (value c) ∧ isHexDigit c.toUpper = true := by
    refine Decimal.forall_mem_toDigits (by decide) (fun d hd => ?_) n
    obtain ⟨hdigit, hhex⟩ := digit_of_lt d hd
    simp only [value, hdigit, Option.getD_some]
    exact ⟨trivial, hhex⟩
  constructor
  · have hmap : ((Nat.toDigits 16 n).map Char.toUpper).filterMap (Text.digitIn? 16)
        = (Nat.toDigits 16 n).map value := by
      rw [List.filterMap_map]
      refine (List.filterMap_congr fun c hc => (hdigits c hc).1).trans ?_
      exact congrFun List.filterMap_eq_map' _
    rw [hexValue, hmap]
    refine Decimal.ofDigits_map_toDigits (by decide) (fun d hd => ?_) n
    simp only [value, (digit_of_lt d hd).1, Option.getD_some]
  · rw [List.all_map, List.all_eq_true]
    exact fun c hc => (hdigits c hc).2

namespace Writing

theorem hexDigits_spec {count n : Nat} (hcount : 0 < count) (hn : n < 16 ^ count) :
    (hexDigits count n).length = count ∧ (hexDigits count n).all isHexDigit = true
      ∧ hexValue (hexDigits count n) = n := by
  obtain ⟨hvalue, hall⟩ := hexValue_toDigits n
  have hlength := (Nat.length_toDigits_le_iff (b := 16) (by decide) hcount).2 hn
  have hzeros : ∀ k ds, hexValue (List.replicate k '0' ++ ds) = hexValue ds := by
    intro k ds
    induction k with
    | zero => rfl
    | succ k ih => exact ih
  refine ⟨?_, ?_, ?_⟩
  · simp [hexDigits]
    omega
  · rw [hexDigits, List.all_append, hall, Bool.and_true, List.all_eq_true]
    intro ch hch
    rw [(List.mem_replicate.1 hch).2]
    decide
  · rw [hexDigits, hzeros, hvalue]

end Writing

/-! ## Escapes -/

/-- The number of a character is no surrogate. -/
theorem isSurrogate_toNat (ch : Char) : Text.isSurrogate ch.toNat = false := by
  have hv := ch.valid
  simp only [UInt32.isValidChar, Nat.isValidChar, Char.toNat_val] at hv
  rw [Bool.eq_false_iff, ne_eq, Text.isSurrogate_iff]
  omega

theorem toNat_lt (ch : Char) : ch.toNat < 0x110000 := by
  have hv := ch.valid
  simp only [UInt32.isValidChar, Nat.isValidChar, Char.toNat_val] at hv
  omega

theorem charOfCode_toNat (ch : Char) : charOfCode ch.toNat = .ok ch := by
  have hlt := toNat_lt ch
  rw [charOfCode, if_neg (by omega), if_neg (by omega), isSurrogate_toNat]
  exact congrArg Except.ok (Char.ofNat_toNat ch)

variable {c c' : Cursor} {body s rest : List Char}

theorem ok_bind {α β : Type} (a : α) (f : α → Except Error β) : Except.ok a >>= f = f a := rfl

theorem readEscape_of_letter {ch l : Char} (hc : c.rest = l :: rest) (hl : escaped? l = some ch) :
    ∃ c', readEscape c = .ok ([ch], c') ∧ c'.rest = rest := by
  refine ⟨c.next, ?_, c.rest_next_of_cons hc⟩
  simp only [readEscape, Cursor.peek, hc, List.head?_cons, hl]
  rfl

/-- An escape with the number of a character is read as the character. -/
theorem readEscape_of_readCode {ch l : Char} (hc : c.rest = l :: rest) (hl : escaped? l = none)
    (hcode : readCode c = .ok (some (ch.toNat, c'))) : readEscape c = .ok ([ch], c') := by
  simp only [readEscape, Cursor.peek, hc, List.head?_cons, hl, hcode, ok_bind, charOfCode_toNat]
  rfl

namespace Writing

theorem escaped?_of_letter? {ch l : Char} (h : letter? ch = some l) : escaped? l = some ch := by
  obtain ⟨before, after, htable, -⟩ := List.lookup_eq_some_iff.1 h
  have hall : ∀ p ∈ before ++ (ch, l) :: after, escaped? p.2 = some p.1 := by
    rw [← htable]
    decide
  exact hall (ch, l) (by simp)

/-- The letter and the digits of an escape are read as the number. -/
theorem readCode_hexDigits {l : Char} {width n : Nat} (hl : escapeWidth? l = some width)
    (hwidth : 0 < width) (hn : n < 16 ^ width) (hc : c.rest = l :: hexDigits width n ++ rest) :
    ∃ c', readCode c = .ok (some (n, c')) ∧ c'.rest = rest := by
  obtain ⟨hlength, hall, hvalue⟩ := hexDigits_spec hwidth hn
  have hdigits : c.next.rest.take width = hexDigits width n := by
    rw [c.rest_next, hc]
    exact List.take_left' hlength
  refine ⟨c.skip (width + 1), ?_, ?_⟩
  · simp only [readCode, Cursor.peek, hc, List.cons_append, List.head?_cons, Option.bind_some, hl]
    simp only [hdigits, hlength, hall, hvalue]
    rfl
  · rw [c.rest_skip, hc]
    exact List.drop_left' (by simp [hlength])

/-- What follows the backslash of an escape is read as the character that is escaped. -/
theorem exists_readEscape (ch : Char) : ∃ e, escapeOf ch = '\\' :: e
    ∧ ∀ (c : Cursor) (rest : List Char), c.rest = e ++ rest →
      ∃ c', readEscape c = .ok ([ch], c') ∧ c'.rest = rest := by
  rw [escapeOf]
  cases hletter : letter? ch with
  | some l =>
    exact ⟨[l], rfl, fun c rest hc => readEscape_of_letter hc (escaped?_of_letter? hletter)⟩
  | none =>
    have hcode : ∀ (l : Char) (width : Nat), escaped? l = none → escapeWidth? l = some width →
        0 < width → ch.toNat < 16 ^ width → ∀ (c : Cursor) (rest : List Char),
        c.rest = l :: hexDigits width ch.toNat ++ rest →
        ∃ c', readEscape c = .ok ([ch], c') ∧ c'.rest = rest := by
      intro l width hl hwidth hpos hlt c rest hc
      obtain ⟨c', hread, hrest⟩ := readCode_hexDigits hwidth hpos hlt hc
      exact ⟨c', readEscape_of_readCode hc hl hread, hrest⟩
    have hlt := toNat_lt ch
    dsimp only
    split
    · exact ⟨_, rfl, hcode 'x' 2 rfl rfl (by decide) (by omega)⟩
    · split
      · exact ⟨_, rfl, hcode 'u' 4 rfl rfl (by decide) (by omega)⟩
      · exact ⟨_, rfl, hcode 'U' 8 rfl rfl (by decide) (by omega)⟩

end Writing

/-! ## Between double quotes -/

namespace Reads

theorem escape {e t : List Char} (h : Reads true body s rest)
    (he : ∀ c : Cursor, c.rest = e ++ body → ∃ c', readEscape c = .ok (t, c') ∧ c'.rest = body) :
    Reads true ('\\' :: e ++ body) (t ++ s) rest := by
  intro c hc
  obtain ⟨c₁, hread, hleft⟩ := he c.next (c.rest_next_of_cons hc)
  obtain ⟨c', hmore, hrest⟩ := h c₁ hleft
  refine ⟨c', .escape rfl hc hread ?_ hmore, hrest⟩
  rw [hc, hleft, List.length_append, List.length_cons]
  omega

theorem escapeOf (h : Reads true body s rest) (ch : Char) :
    Reads true (Writing.escapeOf ch ++ body) (ch :: s) rest := by
  obtain ⟨e, hwritten, hread⟩ := Writing.exists_readEscape ch
  rw [hwritten]
  exact h.escape (t := [ch]) fun c hc => hread c body hc

/-- A blank after a backslash counts. -/
theorem escapedBlank (h : Reads true body s rest) :
    Reads true ('\\' :: ' ' :: body) (' ' :: s) rest :=
  h.escape (e := [' ']) (t := [' ']) fun _ hc => readEscape_of_letter hc rfl

/-- A line end after a backslash does not count. -/
theorem brokenLine (h : Reads true body s rest) (hbody : atGap body = false) :
    Reads true ('\\' :: Writing.newLine ++ body) s rest := by
  refine h.escape (t := []) fun c hc => ?_
  have hend : c.lineEnd? = some ('\n', c.next) := lineEnd?_of_isKept hc rfl
  obtain ⟨c', hread, hleft⟩ := @readLineEnds_of_isKept c.next body [] nofun
    (c.rest_next_of_cons hc) hbody (c.next.rest.length + 1) (Nat.succ_pos _)
  have hc' : c.rest = '\n' :: ' ' :: ' ' :: body := hc
  have hcode : readCode c = .ok none := by
    rw [readCode, Cursor.peek, hc']
    rfl
  have hletter : escaped? '\n' = none := rfl
  refine ⟨c', ?_, hleft⟩
  simp only [readEscape, Cursor.peek, hc', List.head?_cons, hletter, hcode, ok_bind, hend]
  exact hread

end Reads

namespace Writing

variable {s rest : List Char}

/-- A character that is not escaped is a gap only if it is a blank. -/
theorem isGap_of_not_isEscaped {ch : Char} (h : isEscaped ch = false) (hblank : ch ≠ ' ') :
    isGap ch = false := by
  have hne : ∀ a : Char, isEscaped a = true → ch ≠ a := fun a ha heq => by simp [heq, ha] at h
  simp [isGap, isSpace, isBreak, hblank, hne '\t' rfl, hne '\n' rfl, hne '\r' rfl, hne '\x85' rfl,
    hne '\u2028' rfl, hne '\u2029' rfl]

theorem reads_of_not_isEscaped {ch : Char} {body : List Char} (h : isEscaped ch = false)
    (hblank : ch ≠ ' ') (hmore : Reads true body s rest) :
    Reads true (ch :: body) (ch :: s) rest := by
  refine hmore.char (isGap_of_not_isEscaped h hblank) ?_ fun _ => ?_
  · rintro rfl
    cases h
  · rintro rfl
    cases h

theorem atGap_escapeOf (ch : Char) (body : List Char) : atGap (escapeOf ch ++ body) = false := by
  obtain ⟨e, hwritten, -⟩ := exists_readEscape ch
  rw [hwritten]
  rfl

/-- How a character is written between double quotes: escaped or as itself, with a broken line
behind it or in front of it, or with none. -/
theorem doubleQuotedBody_cons (isFirst : Bool) (column waiting : Nat) (ch : Char) (s : List Char) :
    (isEscaped ch = true ∧ ∃ column',
        doubleQuotedBody isFirst column waiting (ch :: s)
          = escapeOf ch ++ doubleQuotedBody false column' 0 s)
      ∨ (isEscaped ch = true ∧
        doubleQuotedBody isFirst column waiting (ch :: s)
          = escapeOf ch ++ ((brokenBefore s.head?).1
            ++ doubleQuotedBody false (brokenBefore s.head?).2 0 s))
      ∨ (isEscaped ch = false ∧ width < column ∧
        doubleQuotedBody isFirst column waiting (ch :: s)
          = (brokenBefore (some ch)).1
            ++ ch :: doubleQuotedBody false ((brokenBefore (some ch)).2 + 1) 1 s)
      ∨ (isEscaped ch = false ∧
        doubleQuotedBody isFirst column waiting (ch :: s)
          = ch :: doubleQuotedBody false (column + 1) (waiting + 1) s) := by
  rw [doubleQuotedBody]
  cases hescaped : isEscaped ch with
  | true =>
    simp only [if_true]
    split
    · exact .inr (.inl ⟨trivial, List.append_assoc ..⟩)
    · exact .inl ⟨trivial, _, rfl⟩
  | false =>
    simp only [Bool.false_eq_true, if_false]
    split
    · next h =>
      simp only [Bool.and_eq_true, decide_eq_true_eq] at h
      exact .inr (.inr (.inl ⟨trivial, h.2, rfl⟩))
    · exact .inr (.inr (.inr ⟨trivial, rfl⟩))

/-- The inside of double quotes starts with a gap only if the text starts with a blank. -/
theorem atGap_doubleQuotedBody (hs : s.head? ≠ some ' ') (isFirst : Bool) (column waiting : Nat) :
    atGap (doubleQuotedBody isFirst column waiting s ++ '"' :: rest) = false := by
  cases s with
  | nil => rfl
  | cons ch s =>
    have hblank : ch ≠ ' ' := fun heq => hs (congrArg some heq)
    rcases doubleQuotedBody_cons isFirst column waiting ch s with ⟨-, column', hbody⟩ | ⟨-, hbody⟩
        | ⟨-, -, hbody⟩ | ⟨hescaped, hbody⟩
    · rw [hbody, List.append_assoc]
      exact atGap_escapeOf ch _
    · rw [hbody, List.append_assoc]
      exact atGap_escapeOf ch _
    · rw [hbody, brokenBefore]
      split <;> rfl
    · rw [hbody]
      exact isGap_of_not_isEscaped hescaped hblank

/-- Behind a broken line, the text goes on: after a backslash if it goes on with a blank. -/
theorem reads_brokenBefore {next : Option Char} {body : Nat → List Char}
    (hbody : next ≠ some ' ' → atGap (body indentColumn) = false)
    (hplain : next ≠ some ' ' → Reads true (body indentColumn) s rest)
    (hblank : next = some ' ' → Reads true ('\\' :: body (indentColumn + 1)) s rest) :
    Reads true ((brokenBefore next).1 ++ body (brokenBefore next).2) s rest := by
  rw [brokenBefore]
  by_cases hnext : next = some ' '
  · simp only [hnext, beq_self_eq_true, if_true]
    rw [List.append_assoc]
    exact (hblank hnext).brokenLine rfl
  · simp only [beq_eq_false_iff_ne.2 hnext, Bool.false_eq_true, if_false]
    exact (hplain hnext).brokenLine (hbody hnext)

/-- **The inside of double quotes** is read as it stood. The induction carries raw blanks in front
of the place, since they are one gap with those that follow, and the case of a blank behind a
backslash, where a line was broken. -/
theorem reads_doubleQuotedBody (s : List Char) :
    (∀ blanks isFirst column waiting,
      Reads true (List.replicate blanks ' '
        ++ (doubleQuotedBody isFirst column waiting s ++ '"' :: rest))
        (List.replicate blanks ' ' ++ s) rest)
    ∧ ∀ column waiting, column ≤ width → s.head? = some ' ' →
      Reads true ('\\' :: (doubleQuotedBody false column waiting s ++ '"' :: rest)) s rest := by
  induction s with
  | nil =>
    have hclose : Reads true ('"' :: rest) [] rest := Reads.close nofun
    exact ⟨fun _ _ _ _ => hclose.blanks rfl, nofun⟩
  | cons ch s ih =>
    obtain ⟨hmore, hbehind⟩ := ih
    have hbare : ∀ column waiting,
        Reads true (doubleQuotedBody false column waiting s ++ '"' :: rest) s rest :=
      hmore 0 false
    constructor
    · intro blanks isFirst column waiting
      rcases doubleQuotedBody_cons isFirst column waiting ch s with ⟨-, column', hbody⟩ | ⟨-, hbody⟩
          | ⟨hescaped, -, hbody⟩ | ⟨hescaped, hbody⟩
      · rw [hbody, List.append_assoc]
        exact ((hbare _ _).escapeOf ch).blanks (atGap_escapeOf ch _)
      · rw [hbody, List.append_assoc, List.append_assoc]
        have hbroken := @reads_brokenBefore s rest s.head?
          (fun column => doubleQuotedBody false column 0 s ++ '"' :: rest)
          (fun hs => atGap_doubleQuotedBody hs _ _ _) (fun _ => hbare _ _)
          (hbehind _ _ (by decide))
        exact (hbroken.escapeOf ch).blanks (atGap_escapeOf ch _)
      · rw [hbody, List.append_assoc]
        have hbroken := @reads_brokenBefore (ch :: s) rest (some ch)
          (fun column => ch :: (doubleQuotedBody false (column + 1) 1 s ++ '"' :: rest))
          (fun hne => isGap_of_not_isEscaped hescaped fun heq => hne (congrArg some heq))
          (fun hne => reads_of_not_isEscaped hescaped (fun heq => hne (congrArg some heq))
            (hbare _ _))
          (fun heq => Option.some.inj heq ▸ (hbare _ _).escapedBlank)
        refine Reads.blanks hbroken ?_
        rw [brokenBefore]
        split <;> rfl
      · rw [hbody, List.cons_append]
        by_cases hblank : ch = ' '
        · subst hblank
          have hjoin : ∀ t : List Char, List.replicate blanks ' ' ++ ' ' :: t
              = List.replicate (blanks + 1) ' ' ++ t := by
            intro t
            rw [List.replicate_succ', List.append_assoc]
            rfl
          rw [hjoin, hjoin]
          exact hmore _ _ _ _
        · exact (reads_of_not_isEscaped hescaped hblank (hbare _ _)).blanks
            (isGap_of_not_isEscaped hescaped hblank)
    · intro column waiting hcolumn hs
      obtain rfl : ch = ' ' := Option.some.inj hs
      rcases doubleQuotedBody_cons false column waiting ' ' s with ⟨hescaped, -⟩ | ⟨hescaped, -⟩
          | ⟨-, hlt, -⟩ | ⟨-, hbody⟩
      · cases hescaped
      · cases hescaped
      · exact absurd hlt (Nat.not_lt.2 hcolumn)
      · rw [hbody]
        exact (hbare _ _).escapedBlank

/-- **Double quotes.** Every text is read back from between double quotes. -/
theorem readQuoted_doubleQuoted (s : List Char) {column : Nat} {c : Cursor}
    (hc : c.rest = doubleQuoted column s ++ rest) :
    ∃ c', readQuoted true c = .ok (s, c') ∧ c'.rest = rest := by
  have hreads := (@reads_doubleQuotedBody rest s).1 0 true (column + 1) 0
  obtain ⟨c', hread, hrest⟩ := hreads c.next (by
    rw [c.rest_next, hc]
    simp [doubleQuoted])
  exact ⟨c', hread.readQuoted_eq, hrest⟩

end Writing

end ThreatTree.Yaml
