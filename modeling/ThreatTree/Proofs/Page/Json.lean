import ThreatTree.Page.Json.Reading
import ThreatTree.Proofs.Decimal.Digits
import ThreatTree.Proofs.Text.Pieces

/-!
# What is written in JSON is read back

A character is written as itself, as a letter after a backslash, or as the numbers of its UTF-16
units; whichever it is, its units are read (`cutString_escapeChar`), so a string is read as the
text that it was written for (`tokens?_string`). A value is written if its text is read as some
tokens, whatever follows, and these tokens as the value (`IsWritten`). Ranges are written, and so
are objects with written members (`isWritten_pair`, `isWritten_object`).

What is written has only printable ASCII characters, and none that means something in HTML
(`isScriptSafe_string`, `isScriptSafe_pair`, `isScriptSafe_object`).
-/

namespace ThreatTree.Json

/-! ## Numbers in base sixteen -/

/-- The value of a hexadecimal digit. -/
def hexValue (c : Char) : Nat := (Text.digitIn? 16 c).getD 0

theorem ofDigits_zeros (base k : Nat) (ds : List Nat) :
    Decimal.ofDigits base (List.replicate k 0 ++ ds) = Decimal.ofDigits base ds := by
  induction k with
  | zero => rfl
  | succ k ih =>
    rw [← ih, List.replicate_succ, List.cons_append, Decimal.ofDigits, List.foldl_cons,
      Nat.zero_mul]
    rfl

theorem mapM_digitIn? {ds : List Char}
    (h : ∀ c ∈ ds, Text.digitIn? 16 c = some (hexValue c)) :
    ds.mapM (Text.digitIn? 16) = some (ds.map hexValue) := by
  induction ds with
  | nil => rfl
  | cons c ds ih =>
    rw [List.forall_mem_cons] at h
    rw [List.mapM_cons, h.1, ih h.2]
    rfl

/-- The number of a unit is written with four digits. -/
theorem exists_unicodeEscape {n : Nat} (hn : n < 0x10000) :
    ∃ a b c d, unicodeEscape n = ['\\', 'u', a, b, c, d] ∧ hex4? [a, b, c, d] = some n := by
  let digits := List.replicate (4 - (Nat.toDigits 16 n).length) '0' ++ Nat.toDigits 16 n
  have hlength : digits.length = 4 := by
    have hle := (Nat.length_toDigits_le_iff (b := 16) (by decide) (by decide : 0 < 4)).2 hn
    rw [List.length_append, List.length_replicate]
    omega
  have hvalue : ∀ c ∈ digits, Text.digitIn? 16 c = some (hexValue c) := by
    rw [List.forall_mem_append]
    refine ⟨?_, ?_⟩
    · intro c hc
      rw [(List.mem_replicate.1 hc).2]
      decide
    · exact Decimal.forall_mem_toDigits (by decide) (by decide) n
  have hread : hex4? digits = some n := by
    rw [hex4?, mapM_digitIn? hvalue, Option.map_some, List.map_append, List.map_replicate]
    show some (Decimal.ofDigits 16 (List.replicate _ 0 ++ _)) = some n
    rw [ofDigits_zeros, Decimal.ofDigits_map_toDigits (by decide) (by decide)]
  obtain ⟨a, b, c, d, hdigits⟩ : ∃ a b c d, digits = [a, b, c, d] := by
    match digits, hlength with
    | [a, b, c, d], _ => exact ⟨a, b, c, d, rfl⟩
  refine ⟨a, b, c, d, ?_, hdigits ▸ hread⟩
  rw [← hdigits]
  rfl

/-! ## Strings -/

/-- The units of a piece of a string stand in front of those of the rest. -/
def prependUnits (us : List Nat) (p : List Nat × List Char) : List Nat × List Char :=
  (us ++ p.1, p.2)

theorem cutString_unicodeEscape {n : Nat} (hn : n < 0x10000) (rest : List Char) :
    cutString (unicodeEscape n ++ rest) = (cutString rest).map (prependUnits [n]) := by
  obtain ⟨a, b, c, d, hescape, hhex⟩ := exists_unicodeEscape hn
  rw [hescape]
  show cutString ('\\' :: 'u' :: a :: b :: c :: d :: rest) = _
  rw [cutString, hhex]
  rfl

theorem cutString_units {us : List Nat} (h : ∀ u ∈ us, u < 0x10000) (rest : List Char) :
    cutString (us.flatMap unicodeEscape ++ rest) = (cutString rest).map (prependUnits us) := by
  induction us with
  | nil => cases hrest : cutString rest <;> simp [prependUnits, hrest]
  | cons u us ih =>
    rw [List.forall_mem_cons] at h
    rw [List.flatMap_cons, List.append_assoc, cutString_unicodeEscape h.1, ih h.2,
      Option.map_map]
    rfl

theorem lt_of_mem_toUnits {c : Char} : ∀ u ∈ Text.toUnits c, u < 0x10000 := by
  have hv := c.valid
  simp only [UInt32.isValidChar, Nat.isValidChar, Char.toNat_val] at hv
  by_cases h : c.toNat < 0x10000
  · simp [Text.toUnits, h]
  · simp only [Text.toUnits, h, if_false, List.forall_mem_cons, List.not_mem_nil, false_implies,
      implies_true, and_true]
    omega

/-- The characters that are written as a letter, with their letters. -/
theorem shortEscape?_cases {c e : Char} (h : shortEscape? c = some e) :
    (c, e) ∈ [('"', '"'), ('\\', '\\'), ('\n', 'n'), ('\r', 'r'), ('\t', 't'), ('\x0c', 'f'),
      ('\x08', 'b')] := by
  obtain ⟨before, after, heq, -⟩ := List.lookup_eq_some_iff.1 h
  rw [heq]
  exact List.mem_append_right _ List.mem_cons_self

/-- A character is written so that its units are read. -/
theorem cutString_escapeChar (c : Char) (rest : List Char) :
    cutString (escapeChar c ++ rest) = (cutString rest).map (prependUnits (Text.toUnits c)) := by
  rw [escapeChar]
  cases hshort : shortEscape? c with
  | some e =>
    have hmem := shortEscape?_cases hshort
    simp only [List.mem_cons, Prod.mk.injEq, List.not_mem_nil, or_false] at hmem
    rcases hmem with ⟨rfl, rfl⟩ | ⟨rfl, rfl⟩ | ⟨rfl, rfl⟩ | ⟨rfl, rfl⟩ | ⟨rfl, rfl⟩ | ⟨rfl, rfl⟩
      | ⟨rfl, rfl⟩ <;> rfl
  | none =>
    dsimp only
    split
    · next hplain =>
      simp only [Bool.and_eq_true, decide_eq_true_eq] at hplain
      have hquote : c ≠ '"' := by
        rintro rfl
        exact absurd hshort (by decide)
      have hbackslash : c ≠ '\\' := by
        rintro rfl
        exact absurd hshort (by decide)
      rw [List.singleton_append, cutString, if_neg (by omega)]
      · rfl
      · exact fun heq => absurd heq hquote
      · exact fun _ _ _ _ _ heq => absurd heq hbackslash
      · exact fun _ _ heq => absurd heq hbackslash
    · exact cutString_units lt_of_mem_toUnits rest

theorem cutString_escaped (s rest : List Char) :
    cutString (s.flatMap escapeChar ++ '"' :: rest) = some (s.flatMap Text.toUnits, rest) := by
  induction s with
  | nil => rw [List.flatMap_nil, List.nil_append, cutString]; rfl
  | cons c s ih =>
    rw [List.flatMap_cons, List.append_assoc, cutString_escapeChar, ih]
    rfl

theorem tokens?_quote {s rest : List Char} {us : List Nat}
    (h : cutString s = some (us, rest)) :
    tokens? ('"' :: s) = (Text.ofUnits? us).bind fun t => (tokens? rest).map (.text t :: ·) := by
  rw [tokens?]
  split
  · next hnone =>
    rw [h] at hnone
    cases hnone
  · next p hsome =>
    obtain rfl := Option.some.inj (h.symm.trans hsome)
    rfl

/-- A string is read as the text that it was written for. -/
theorem tokens?_string (s rest : List Char) :
    tokens? (string s ++ rest) = (tokens? rest).map (.text s :: ·) := by
  have hcut : cutString (s.flatMap escapeChar ++ ['"'] ++ rest)
      = some (s.flatMap Text.toUnits, rest) := by
    rw [List.append_assoc]
    exact cutString_escaped s rest
  rw [string, List.cons_append, List.cons_append, tokens?_quote hcut,
    Text.ofUnits?_flatMap_toUnits, Option.bind_some]

/-- Different texts are written as different strings. -/
theorem string_injective {s t : List Char} (h : string s = string t) : s = t := by
  have hs := tokens?_string s []
  rw [h, tokens?_string t [], tokens?_nil] at hs
  simpa using hs.symm

/-! ## Pieces of a text -/

/-- The text is read as the tokens, whatever follows it. -/
def Reads (s : List Char) (ts : List Token) : Prop :=
  ∀ rest, tokens? (s ++ rest) = (tokens? rest).map (ts ++ ·)

theorem Reads.append {s s' : List Char} {ts ts' : List Token} (h : Reads s ts)
    (h' : Reads s' ts') : Reads (s ++ s') (ts ++ ts') := by
  intro rest
  rw [List.append_assoc, h, h', Option.map_map]
  exact Option.map_congr fun us _ => (List.append_assoc ts ts' us).symm

theorem Reads.tokens?_eq {s : List Char} {ts : List Token} (h : Reads s ts) :
    tokens? s = some ts := by
  have hend := h []
  rwa [List.append_nil, tokens?_nil, Option.map_some, List.append_nil] at hend

theorem reads_string (s : List Char) : Reads (string s) [.text s] := fun rest =>
  tokens?_string s rest

theorem reads_mark {c : Char} {t : Token} (h : (c, t) ∈ marks) : Reads [c] [t] := tokens?_mark h

theorem reads_blank : Reads [' '] [] := fun rest => by
  rw [List.singleton_append, tokens?_blank]
  cases tokens? rest <;> rfl

/-- A number is read up to a character that is no digit. -/
theorem tokens?_number (n : Nat) {rest : List Char}
    (h : ∀ c ∈ rest.head?, c.isDigit = false) :
    tokens? ((toString n).toList ++ rest) = (tokens? rest).map (.number n :: ·) := by
  have hdigits : ∀ c ∈ Nat.toDigits 10 n, c.isDigit = true := fun c =>
    Nat.isDigit_of_mem_toDigits (by decide) (by decide)
  have hvalue : number (Nat.toDigits 10 n) = n :=
    Decimal.ofDigits_map_toDigits (by decide) (by decide) n
  have hnumeral : isNumeral (Nat.toDigits 10 n) = true := by
    rcases Nat.eq_zero_or_pos n with rfl | hpos
    · rfl
    · have hhead : (Nat.toDigits 10 n).head? ≠ some '0' :=
        Decimal.head?_toDigits_ne (by decide) (by decide) hpos
      simp [isNumeral, hhead]
  have hlist : (toString n).toList = Nat.toDigits 10 n := Nat.toList_repr
  rw [hlist]
  obtain ⟨c, ds, hcons⟩ := List.exists_cons_of_ne_nil (Nat.toDigits_ne_nil (n := n) (b := 10))
  rw [hcons] at hdigits hvalue hnumeral ⊢
  rw [List.forall_mem_cons] at hdigits
  -- The digits end where the rest begins.
  have hrest : rest.takeWhile Char.isDigit = [] ∧ rest.dropWhile Char.isDigit = rest := by
    cases rest with
    | nil => exact ⟨rfl, rfl⟩
    | cons d rest =>
      have hd : ¬d.isDigit = true := by simp [h d rfl]
      exact ⟨List.takeWhile_cons_of_neg hd, List.dropWhile_cons_of_neg hd⟩
  have htake : (ds ++ rest).takeWhile Char.isDigit = ds := by
    rw [List.takeWhile_append_of_pos hdigits.2, hrest.1, List.append_nil]
  have hdrop : (ds ++ rest).dropWhile Char.isDigit = rest := by
    rw [List.dropWhile_append_of_pos hdigits.2, hrest.2]
  rw [List.cons_append, tokens?]
  · simp only [htake, hdrop, hdigits.1, hnumeral, hvalue, Bool.and_self, if_true]
  all_goals
    rintro rfl
    exact absurd hdigits.1 (by decide)

/-- A number is read in front of a mark. -/
theorem reads_number {c : Char} {t : Token} (h : (c, t) ∈ marks) (n : Nat) :
    Reads ((toString n).toList ++ [c]) [.number n, t] := by
  have hmarks : ∀ m ∈ marks, m.1.isDigit = false := by decide
  intro rest
  have hhead : ∀ d ∈ ([c] ++ rest).head?, d.isDigit = false := by
    intro d hd
    obtain rfl : c = d := Option.some.inj hd
    exact hmarks _ h
  rw [List.append_assoc, tokens?_number n hhead, List.singleton_append, tokens?_mark h,
    Option.map_map]
  rfl

/-! ## Values -/

/-- The tokens are read as the value, whatever follows them. -/
def Builds (ts : List Token) (t : Tree) : Prop :=
  ∀ n rest, ts.length ≤ n → tree? n (ts ++ rest) = some (t, rest)

/-- The text is written for the value. -/
def IsWritten (s : List Char) (t : Tree) : Prop := ∃ ts, Reads s ts ∧ Builds ts t

theorem IsWritten.read?_eq {s : List Char} {t : Tree} (h : IsWritten s t) : read? s = some t := by
  obtain ⟨ts, hreads, hbuilds⟩ := h
  have htree := hbuilds (2 * ts.length + 1) [] (by omega)
  rw [List.append_nil] at htree
  rw [read?, hreads.tokens?_eq, Option.bind_some, htree]

/-- An array of two numbers. -/
def Tree.pair (p : Nat × Nat) : Tree := .array [.number p.1, .number p.2]

@[simp]
theorem Tree.range?_pair (p : Nat × Nat) : (Tree.pair p).range? = some p := rfl

theorem isWritten_pair (p : Nat × Nat) : IsWritten (pair p) (.pair p) := by
  refine ⟨[.openArray, .number p.1, .comma, .number p.2, .closeArray], ?_, ?_⟩
  · have hopen : Reads ['['] [.openArray] := reads_mark (by decide)
    have hfirst : Reads ((toString p.1).toList ++ [',']) [.number p.1, .comma] :=
      reads_number (by decide) p.1
    have hsecond : Reads ((toString p.2).toList ++ [']']) [.number p.2, .closeArray] :=
      reads_number (by decide) p.2
    simpa [pair] using ((hopen.append hfirst).append reads_blank).append hsecond
  · intro n rest hn
    obtain ⟨m, rfl⟩ : ∃ m, n = m + 4 := ⟨n - 4, by simp only [List.length_cons] at hn; omega⟩
    simp [tree?, items?, Tree.pair]

/-! ## Objects -/

section Object

variable {α : Type} (key : α → String) (value : α → List Char) (tree : α → Tree)

/-- The tokens are read as the rest of an object, from its next member on. -/
def BuildsMembers (ts : List Token) (l : List α) : Prop :=
  ∀ n rest, ts.length < n → members? n (ts ++ .closeObject :: rest)
    = some (l.map fun a => ((key a).toList, tree a), rest)

theorem reads_comma : Reads [',', ' '] [.comma] :=
  Reads.append (reads_mark (by decide) : Reads [','] [.comma]) reads_blank

theorem reads_colon : Reads [':', ' '] [.colon] :=
  Reads.append (reads_mark (by decide) : Reads [':'] [.colon]) reads_blank

theorem exists_reads_members (l : List α) (hne : l ≠ [])
    (h : ∀ a ∈ l, IsWritten (value a) (tree a)) :
    ∃ k ts, Reads (Text.join [',', ' '] (l.map fun a =>
        string (key a).toList ++ [':', ' '] ++ value a)) (.text k :: ts)
      ∧ BuildsMembers key tree (.text k :: ts) l := by
  induction l with
  | nil => exact absurd rfl hne
  | cons a l ih =>
    rw [List.forall_mem_cons] at h
    obtain ⟨⟨us, hreads, hbuilds⟩, h⟩ := h
    have hmember : Reads (string (key a).toList ++ [':', ' '] ++ value a)
        (.text (key a).toList :: .colon :: us) :=
      ((reads_string _).append reads_colon).append hreads
    cases l with
    | nil =>
      refine ⟨_, _, hmember, ?_⟩
      intro n rest hn
      obtain ⟨n, rfl⟩ : ∃ m, n = m + 1 := ⟨n - 1, by omega⟩
      simp only [List.length_cons] at hn
      rw [List.cons_append, List.cons_append, members?, hbuilds n _ (by omega)]
      rfl
    | cons b l =>
      obtain ⟨k, ts, hrest, hmembers⟩ := ih (List.cons_ne_nil b l) h
      refine ⟨(key a).toList, .colon :: (us ++ .comma :: .text k :: ts), ?_, ?_⟩
      · rw [List.map_cons, Text.join_cons (by simp)]
        simpa using (hmember.append reads_comma).append hrest
      · intro n rest hn
        obtain ⟨n, rfl⟩ : ∃ m, n = m + 1 := ⟨n - 1, by omega⟩
        simp only [List.length_cons, List.length_append] at hn
        rw [List.cons_append, List.cons_append, List.append_assoc, members?,
          hbuilds n _ (by omega)]
        show (members? n (.text k :: ts ++ .closeObject :: rest)).map _ = _
        rw [hmembers n rest (by simp only [List.length_cons]; omega)]
        rfl

/-- An object whose members are written is written. -/
theorem isWritten_object (l : List α) (h : ∀ a ∈ l, IsWritten (value a) (tree a)) :
    IsWritten (object (l.map fun a => (key a, value a)))
      (.object (l.map fun a => ((key a).toList, tree a))) := by
  have hopen : Reads ['\x7b'] [.openObject] := reads_mark (by decide)
  have hclose : Reads ['\x7d'] [.closeObject] := reads_mark (by decide)
  cases l with
  | nil =>
    refine ⟨[.openObject, .closeObject], hopen.append hclose, ?_⟩
    intro n rest hn
    obtain ⟨n, rfl⟩ : ∃ m, n = m + 1 := ⟨n - 1, by simp only [List.length_cons] at hn; omega⟩
    rfl
  | cons a l =>
    obtain ⟨k, ts, hreads, hmembers⟩ :=
      exists_reads_members key value tree (a :: l) (List.cons_ne_nil a l) h
    refine ⟨.openObject :: (.text k :: ts ++ [.closeObject]), ?_, ?_⟩
    · have hobject := (hopen.append hreads).append hclose
      rw [object, List.map_map]
      exact hobject
    · intro n rest hn
      obtain ⟨n, rfl⟩ : ∃ m, n = m + 1 := ⟨n - 1, by simp only [List.length_cons] at hn; omega⟩
      simp only [List.length_cons, List.length_append] at hn
      have hbuilds := hmembers n rest (by simp only [List.length_cons]; omega)
      simp only [List.cons_append, List.append_assoc, List.nil_append] at hbuilds ⊢
      rw [tree?, hbuilds]
      · rfl
      · intro _ heq
        cases heq

end Object

/-! ## What stands in a script -/

/-- A printable ASCII character that means nothing in HTML and ends no attribute. -/
def IsScriptSafe (c : Char) : Prop :=
  (0x20 ≤ c.toNat ∧ c.toNat ≤ 0x7E) ∧ c ∉ ['<', '>', '&', '\'']

instance : DecidablePred IsScriptSafe := fun _ => inferInstanceAs (Decidable (_ ∧ _))

theorem isScriptSafe_of_all {s : List Char}
    (h : (s.all fun c => decide (IsScriptSafe c)) = true) : ∀ c ∈ s, IsScriptSafe c :=
  fun c hc => of_decide_eq_true (List.all_eq_true.1 h c hc)

theorem isScriptSafe_unicodeEscape (n : Nat) : ∀ c ∈ unicodeEscape n, IsScriptSafe c := by
  intro c hc
  rw [unicodeEscape, List.mem_append, List.mem_cons, List.mem_cons, List.mem_replicate] at hc
  rcases hc with (rfl | rfl | ⟨-, rfl⟩) | hc
  · decide
  · decide
  · decide
  · exact Decimal.forall_mem_toDigits (by decide) (by decide) n c hc

theorem isScriptSafe_escapeChar (c : Char) : ∀ d ∈ escapeChar c, IsScriptSafe d := by
  rw [escapeChar]
  cases hshort : shortEscape? c with
  | some e =>
    have hletter : e ∈ ['"', '\\', 'n', 'r', 't', 'f', 'b'] :=
      List.mem_map_of_mem (f := Prod.snd) (shortEscape?_cases hshort)
    have hsafe : IsScriptSafe e := isScriptSafe_of_all (by decide) e hletter
    simp only [List.forall_mem_cons, List.not_mem_nil, false_implies, implies_true, and_true]
    exact ⟨by decide, hsafe⟩
  | none =>
    dsimp only
    split
    · next hplain =>
      simp only [Bool.and_eq_true, decide_eq_true_eq] at hplain
      simp only [List.mem_singleton, forall_eq]
      refine ⟨hplain.1, fun hmem => ?_⟩
      have hmeaning : ∀ d ∈ ['<', '>', '&', '\''], isUnsafe d = true := List.all_eq_true.1 rfl
      simp [hmeaning c hmem] at hplain
    · intro d hd
      obtain ⟨u, -, hd⟩ := List.mem_flatMap.1 hd
      exact isScriptSafe_unicodeEscape u d hd

theorem isScriptSafe_string (s : List Char) : ∀ c ∈ string s, IsScriptSafe c := by
  intro c hc
  rw [string, List.mem_append, List.mem_cons, List.mem_flatMap, List.mem_singleton] at hc
  rcases hc with (rfl | ⟨d, -, hd⟩) | rfl
  · decide
  · exact isScriptSafe_escapeChar d c hd
  · decide

theorem isScriptSafe_pair (p : Nat × Nat) : ∀ c ∈ pair p, IsScriptSafe c := by
  have hnumber (n : Nat) : ∀ c ∈ (toString n).toList, IsScriptSafe c := by
    rw [show (toString n).toList = Nat.toDigits 10 n from Nat.toList_repr]
    exact Decimal.forall_mem_toDigits (by decide) (by decide) n
  simp only [pair, List.forall_mem_append]
  exact ⟨⟨⟨⟨isScriptSafe_of_all rfl, hnumber p.1⟩, isScriptSafe_of_all rfl⟩, hnumber p.2⟩,
    isScriptSafe_of_all rfl⟩

theorem isScriptSafe_object {members : List (String × List Char)}
    (h : ∀ m ∈ members, ∀ c ∈ m.2, IsScriptSafe c) : ∀ c ∈ object members, IsScriptSafe c := by
  intro c hc
  rw [object, List.mem_append, List.mem_cons, List.mem_singleton] at hc
  rcases hc with (rfl | hc) | rfl
  · decide
  · rcases Text.mem_of_mem_join hc with hc | ⟨piece, hpiece, hc⟩
    · exact isScriptSafe_of_all rfl c hc
    · obtain ⟨m, hm, rfl⟩ := List.mem_map.1 hpiece
      rw [List.mem_append, List.mem_append] at hc
      rcases hc with (hc | hc) | hc
      · exact isScriptSafe_string _ c hc
      · exact isScriptSafe_of_all rfl c hc
      · exact h m hm c hc
  · decide

/-! ## The table of offsets -/

theorem isScriptSafe_table (entries : List (String × Nat × Nat)) :
    ∀ c ∈ table entries, IsScriptSafe c := by
  refine isScriptSafe_object fun m hm => ?_
  obtain ⟨e, -, rfl⟩ := List.mem_map.1 hm
  exact isScriptSafe_pair e.2

theorem isScriptSafe_offsets (o : Location.Offsets) : ∀ c ∈ offsets o, IsScriptSafe c := by
  refine isScriptSafe_object ?_
  simp only [List.forall_mem_cons, List.not_mem_nil, false_implies, implies_true, and_true]
  exact ⟨isScriptSafe_table o.edges, isScriptSafe_table o.nodes⟩

/-- The starts and ends by their names, as they are read. -/
def Tree.table (entries : List (String × Nat × Nat)) : Tree :=
  .object ((sortMembers entries).map fun e => (e.1.toList, .pair e.2))

/-- The table of offsets, as it is read. -/
def Tree.offsets (o : Location.Offsets) : Tree :=
  .object [("edges".toList, .table o.edges), ("nodes".toList, .table o.nodes)]

theorem isWritten_table (entries : List (String × Nat × Nat)) :
    IsWritten (table entries) (.table entries) :=
  isWritten_object Prod.fst (fun e => pair e.2) (fun e => .pair e.2) (sortMembers entries)
    fun e _ => isWritten_pair e.2

theorem isWritten_offsets (o : Location.Offsets) : IsWritten (offsets o) (.offsets o) := by
  refine isWritten_object Prod.fst (fun m => table m.2) (fun m => .table m.2)
    [("edges", o.edges), ("nodes", o.nodes)] fun m _ => isWritten_table m.2

end ThreatTree.Json
