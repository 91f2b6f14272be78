import ThreatTree.Yaml.Lexer

/-!
# Text in front of a text

The lexer knows how many characters and lines it has passed, and keeps the tokens that it has
read. Apart from the very start of a file, it never asks for more than whether two places are on
one line, or how far they are apart. So a text is read in the same way behind other text
(`TokenStream.ofLexer_behind`): every part of the lexer commutes with moving all places
(`Cursor.moved`) and with putting tokens in front of those it has read (`Lexer.behind`).
-/

namespace ThreatTree.Yaml

namespace Cursor

/-- The place with further characters and further lines before it. -/
def moved (i l : Nat) (c : Cursor) : Cursor := { c with index := c.index + i, line := c.line + l }

variable (i l : Nat) (c : Cursor)

@[simp] theorem rest_moved : (c.moved i l).rest = c.rest := rfl

@[simp] theorem column_moved : (c.moved i l).column = c.column := rfl

@[simp] theorem index_moved : (c.moved i l).index = c.index + i := rfl

@[simp] theorem line_moved : (c.moved i l).line = c.line + l := rfl

@[simp] theorem peek_moved : (c.moved i l).peek = c.peek := rfl

@[simp] theorem sees_moved (ch : Char) : (c.moved i l).sees ch = c.sees ch := rfl

@[simp] theorem next_moved : (c.moved i l).next = c.next.moved i l := by
  obtain ⟨rest, index, line, column⟩ := c
  cases rest with
  | nil => rfl
  | cons ch rest =>
    simp only [next, moved, Nat.add_right_comm _ i, Nat.add_right_comm _ l]
    split
    · rfl
    · split <;> rfl

@[simp] theorem skip_moved (n : Nat) : (c.moved i l).skip n = (c.skip n).moved i l := by
  induction n generalizing c with
  | zero => rfl
  | succ n ih => rw [skip, skip, next_moved, ih]

@[simp] theorem takeWhile_moved (p : Char → Bool) :
    (c.moved i l).takeWhile p = ((c.takeWhile p).1, (c.takeWhile p).2.moved i l) := by
  simp only [takeWhile, rest_moved, skip_moved]

@[simp] theorem dropWhile_moved (p : Char → Bool) :
    (c.moved i l).dropWhile p = (c.dropWhile p).moved i l := by
  simp only [dropWhile, takeWhile_moved]

@[simp] theorem lineEnd?_moved :
    (c.moved i l).lineEnd? = c.lineEnd?.map fun r => (r.1, r.2.moved i l) := by
  simp only [lineEnd?, rest_moved, next_moved, skip_moved]
  split
  · rfl
  · split
    · rfl
    · split <;> rfl
  · rfl

@[simp] theorem lineEnd_moved :
    (c.moved i l).lineEnd = (c.lineEnd.1, c.lineEnd.2.moved i l) := by
  simp only [lineEnd, lineEnd?_moved]
  cases c.lineEnd? <;> rfl

@[simp] theorem dropComment_moved : (c.moved i l).dropComment = c.dropComment.moved i l := by
  simp only [dropComment, sees_moved, dropWhile_moved]
  split <;> rfl

end Cursor

/-! ## Readers -/

/-- What was read, and the place after it moved. -/
def movedAfter {α : Type} (i l : Nat) (r : α × Cursor) : α × Cursor := (r.1, r.2.moved i l)

variable {α β γ : Type} (i l : Nat)

@[simp] theorem fst_movedAfter (r : α × Cursor) : (movedAfter i l r).1 = r.1 := rfl

@[simp] theorem snd_movedAfter (r : α × Cursor) : (movedAfter i l r).2 = r.2.moved i l := rfl

@[simp] theorem movedAfter_mk (a : α) (c : Cursor) : movedAfter i l (a, c) = (a, c.moved i l) := rfl

@[simp] theorem map_pure (a : α) (g : α → β) :
    (pure a : Except Error α).map g = pure (g a) := rfl

@[simp] theorem map_throw (e : Error) (g : α → β) :
    (throw e : Except Error α).map g = throw e := rfl

theorem map_bind (x : Except Error α) (f : α → Except Error β) (g : β → γ) :
    (x >>= f).map g = x >>= fun a => (f a).map g := by
  cases x <;> rfl

theorem bind_map (x : Except Error α) (g : α → β) (f : β → Except Error γ) :
    x.map g >>= f = x >>= fun a => f (g a) := by
  cases x <;> rfl

theorem map_ite (p : Prop) [Decidable p] (x y : Except Error α) (g : α → β) :
    (if p then x else y).map g = if p then x.map g else y.map g := by
  split <;> rfl

variable (c : Cursor)

@[simp] theorem readName_moved : readName (c.moved i l) = (readName c).map (movedAfter i l) := by
  simp only [readName, Cursor.next_moved, Cursor.takeWhile_moved, Cursor.rest_moved]
  split <;> rfl

@[simp] theorem readEscapedBytes_moved (n : Nat) :
    readEscapedBytes n (c.moved i l) = (readEscapedBytes n c).map (movedAfter i l) := by
  induction n generalizing c with
  | zero => rfl
  | succ n ih =>
    simp only [readEscapedBytes, Cursor.sees_moved, Cursor.next_moved, Cursor.rest_moved,
      Cursor.skip_moved, ih, bind_map, map_ite, map_bind]
    rfl

@[simp] theorem readAddressParts_moved (n : Nat) :
    readAddressParts n (c.moved i l) = (readAddressParts n c).map (movedAfter i l) := by
  induction n generalizing c with
  | zero => rfl
  | succ n ih =>
    simp only [readAddressParts, Cursor.peek_moved, Cursor.next_moved, Cursor.rest_moved,
      readEscapedBytes_moved, ih, bind_map]
    split
    · rw [map_bind]
      congr 1
      funext r
      dsimp only [movedAfter]
      split
      · rfl
      · rw [map_bind, ih, bind_map]
        rfl
    · rw [map_ite, map_bind]
      rfl
    · rfl

@[simp] theorem readAddress_moved :
    readAddress (c.moved i l) = (readAddress c).map (movedAfter i l) := by
  simp only [readAddress, Cursor.rest_moved, readAddressParts_moved, bind_map, map_bind]
  congr 1
  funext r
  simp only [movedAfter, Cursor.index_moved, Nat.add_right_cancel_iff]
  split <;> rfl

@[simp] theorem readHandle_moved :
    readHandle (c.moved i l) = (readHandle c).map (movedAfter i l) := by
  simp only [readHandle, Cursor.sees_moved, Cursor.next_moved, Cursor.takeWhile_moved, map_ite]
  rfl

@[simp] theorem readTag_moved : readTag (c.moved i l) = (readTag c).map (movedAfter i l) := by
  simp [readTag, bind_map, map_ite, map_bind, -bind_pure_comp]
  rfl

@[simp] theorem readNumber_moved :
    readNumber (c.moved i l) = (readNumber c).map (movedAfter i l) := by
  simp only [readNumber, Cursor.takeWhile_moved, map_ite]
  congr 1
  split <;> rfl

@[simp] theorem readLineRest_moved :
    readLineRest (c.moved i l) = (readLineRest c).map (·.moved i l) := by
  simp [readLineRest, map_ite]

@[simp] theorem readVersion_moved :
    readVersion (c.moved i l) = (readVersion c).map (movedAfter i l) := by
  simp [readVersion, bind_map, map_ite, map_bind, -bind_pure_comp]
  rfl

@[simp] theorem readTagDirective_moved :
    readTagDirective (c.moved i l) = (readTagDirective c).map (movedAfter i l) := by
  simp [readTagDirective, bind_map, map_ite, map_bind, -bind_pure_comp]
  rfl

@[simp] theorem readDirective_moved :
    readDirective (c.moved i l) = (readDirective c).map (movedAfter i l) := by
  simp [readDirective, bind_map, map_ite, map_bind, -bind_pure_comp]

/-! ## Scalars -/

@[simp] theorem readLineEnds_moved (n : Nat) :
    readLineEnds n (c.moved i l) = (readLineEnds n c).map (movedAfter i l) := by
  induction n generalizing c with
  | zero => rfl
  | succ n ih =>
    simp only [readLineEnds, Cursor.rest_moved, Cursor.dropWhile_moved, Cursor.lineEnd?_moved,
      map_ite]
    congr 1
    cases (c.dropWhile isSpace).lineEnd? with
    | none => rfl
    | some r => simp [ih, bind_map, map_bind, -bind_pure_comp]

@[simp] theorem readCode_moved :
    readCode (c.moved i l) = (readCode c).map (Option.map (movedAfter i l)) := by
  simp only [readCode, Cursor.peek_moved, Cursor.next_moved, Cursor.rest_moved, Cursor.skip_moved]
  split
  · rfl
  · rw [map_ite]
    rfl

@[simp] theorem readEscape_moved :
    readEscape (c.moved i l) = (readEscape c).map (movedAfter i l) := by
  simp only [readEscape, Cursor.peek_moved]
  cases c.peek with
  | none => rfl
  | some ch =>
    dsimp only
    cases escaped? ch with
    | some e => simp
    | none =>
      simp only [readCode_moved, bind_map, map_bind]
      congr 1
      funext r
      rcases r with _ | ⟨n, c'⟩
      · simp only [Option.map_none, Cursor.lineEnd?_moved]
        cases c.lineEnd? <;> simp
      · simp [map_bind, -bind_pure_comp]

@[simp] theorem readQuotedRun_moved (double : Bool) (n : Nat) :
    readQuotedRun double n (c.moved i l) = (readQuotedRun double n c).map (movedAfter i l) := by
  induction n generalizing c with
  | zero => rfl
  | succ n ih =>
    simp only [readQuotedRun, Cursor.rest_moved]
    cases c.rest with
    | nil => rfl
    | cons ch rest =>
      simp [ih, bind_map, map_ite, map_bind, -bind_pure_comp]

@[simp] theorem readQuotedGap_moved :
    readQuotedGap (c.moved i l) = (readQuotedGap c).map (movedAfter i l) := by
  simp only [readQuotedGap, Cursor.takeWhile_moved, Cursor.lineEnd?_moved]
  cases (c.takeWhile isSpace).2.lineEnd? with
  | none => simp [map_ite, movedAfter]
  | some r => simp [bind_map, map_bind, -bind_pure_comp]

@[simp] theorem readQuotedBody_moved (double : Bool) (n : Nat) :
    readQuotedBody double n (c.moved i l) = (readQuotedBody double n c).map (movedAfter i l) := by
  induction n generalizing c with
  | zero => rfl
  | succ n ih =>
    simp [readQuotedBody, ih, bind_map, map_ite, map_bind, -bind_pure_comp]

@[simp] theorem readQuoted_moved (double : Bool) :
    readQuoted double (c.moved i l) = (readQuoted double c).map (movedAfter i l) := by
  simp [readQuoted]

@[simp] theorem plainLineEnds_moved (n : Nat) :
    plainLineEnds n (c.moved i l) = movedAfter i l (plainLineEnds n c) := by
  induction n generalizing c with
  | zero => rfl
  | succ n ih =>
    simp only [plainLineEnds, Cursor.rest_moved, Cursor.dropWhile_moved, Cursor.lineEnd?_moved]
    split
    · rfl
    · cases (c.dropWhile (· == ' ')).lineEnd? with
      | none => rfl
      | some r => simp [ih]

@[simp] theorem plainGap_moved :
    plainGap (c.moved i l)
      = ((plainGap c).1, (plainGap c).2.1, (plainGap c).2.2.moved i l) := by
  simp only [plainGap, Cursor.takeWhile_moved, Cursor.lineEnd?_moved]
  cases (c.takeWhile (· == ' ')).2.lineEnd? with
  | none => rfl
  | some r =>
    simp only [Option.map_some, plainLineEnds_moved, Cursor.rest_moved]
    rcases plainLineEnds (r.2.rest.length + 1) r.2 with ⟨_ | bs, c'⟩ <;> rfl

@[simp] theorem plainBody_moved (inFlow : Bool) (indent n : Nat) (gap : List Char) (broke : Bool) :
    plainBody inFlow indent n gap broke (c.moved i l)
      = ((plainBody inFlow indent n gap broke c).1, (plainBody inFlow indent n gap broke c).2.1,
        (plainBody inFlow indent n gap broke c).2.2.moved i l) := by
  induction n generalizing gap broke c with
  | zero => rfl
  | succ n ih =>
    simp only [plainBody, Cursor.rest_moved, Cursor.sees_moved, Cursor.skip_moved, plainGap_moved,
      Cursor.column_moved, ih]
    split
    · rfl
    · split <;> rfl

@[simp] theorem readPlain_moved (inFlow : Bool) (indent : Nat) :
    readPlain inFlow indent (c.moved i l)
      = ((readPlain inFlow indent c).1, (readPlain inFlow indent c).2.1,
        (readPlain inFlow indent c).2.2.moved i l) := by
  simp [readPlain]

@[simp] theorem readIncrement_moved :
    readIncrement (c.moved i l) = (readIncrement c).map (movedAfter i l) := by
  simp only [readIncrement, Cursor.peek_moved, Cursor.next_moved]
  cases c.peek with
  | none => rfl
  | some ch => simp [map_ite]

@[simp] theorem readBlockHeader_moved :
    readBlockHeader (c.moved i l) = (readBlockHeader c).map (movedAfter i l) := by
  simp only [readBlockHeader, Cursor.peek_moved, Cursor.next_moved, readIncrement_moved]
  cases chomping? c.peek with
  | some chomping =>
    simp [bind_map, map_ite, map_bind, -bind_pure_comp]
    rfl
  | none =>
    simp only [bind_map, map_bind]
    congr 1
    funext ⟨increment, c'⟩
    simp only [movedAfter_mk, Cursor.peek_moved, Cursor.next_moved]
    split <;> simp [map_ite] <;> rfl

@[simp] theorem leadingLines_moved (n widest : Nat) :
    leadingLines n widest (c.moved i l)
      = ((leadingLines n widest c).1, (leadingLines n widest c).2.1,
        (leadingLines n widest c).2.2.moved i l) := by
  induction n generalizing widest c with
  | zero => rfl
  | succ n ih =>
    simp only [leadingLines, Cursor.lineEnd?_moved]
    cases c.lineEnd? with
    | none =>
      simp only [Option.map_none, Cursor.sees_moved, Cursor.next_moved, Cursor.column_moved, ih]
      split <;> rfl
    | some r => simp only [Option.map_some, ih]

@[simp] theorem skipIndent_moved (indent : Nat) :
    skipIndent indent (c.moved i l) = (skipIndent indent c).moved i l := by
  simp [skipIndent]

@[simp] theorem blankLines_moved (indent n : Nat) :
    blankLines indent n (c.moved i l) = movedAfter i l (blankLines indent n c) := by
  induction n generalizing c with
  | zero => rfl
  | succ n ih =>
    simp only [blankLines, skipIndent_moved, Cursor.lineEnd?_moved]
    cases (skipIndent indent c).lineEnd? with
    | none => rfl
    | some r => simp [ih]

@[simp] theorem startsLine_moved (indent : Nat) :
    startsLine indent (c.moved i l) = startsLine indent c := rfl

@[simp] theorem blockLines_moved (folded : Bool) (indent n : Nat) (blanks : List Char) :
    blockLines folded indent n blanks (c.moved i l)
      = ((blockLines folded indent n blanks c).1, (blockLines folded indent n blanks c).2.1,
        (blockLines folded indent n blanks c).2.2.1,
        (blockLines folded indent n blanks c).2.2.2.moved i l) := by
  induction n generalizing blanks c with
  | zero => rfl
  | succ n ih =>
    simp only [blockLines, startsLine_moved, Cursor.peek_moved, Cursor.takeWhile_moved,
      Cursor.lineEnd_moved, blankLines_moved, Cursor.rest_moved, fst_movedAfter, snd_movedAfter, ih]
    split
    · split <;> rfl
    · rfl

@[simp] theorem readBlock_moved (folded : Bool) (parent : Nat) :
    readBlock folded parent (c.moved i l) = (readBlock folded parent c).map (movedAfter i l) := by
  simp only [readBlock, Cursor.next_moved, readBlockHeader_moved, bind_map, map_bind]
  congr 1
  funext ⟨⟨chomping, increment⟩, c'⟩
  simp only [movedAfter_mk, readLineRest_moved, bind_map]
  congr 1
  funext c''
  cases increment <;>
    simp only [Cursor.rest_moved, leadingLines_moved, blankLines_moved, blockLines_moved,
      fst_movedAfter, snd_movedAfter] <;> rfl

/-! ## The lexer -/

/-- The candidate with further tokens, characters and lines before it. -/
def Candidate.moved (i l k : Nat) (c : Candidate) : Candidate :=
  { c with position := c.position + k, index := c.index + i, line := c.line + l }

theorem Candidate.isStale_moved (k : Nat) (p : Candidate) (c : Cursor) :
    (p.moved i l k).isStale (c.moved i l) = p.isStale c := by
  have hline : (p.line + l != c.line + l) = (p.line != c.line) := by
    rw [Bool.eq_iff_iff]
    simp
  simp [isStale, moved, hline, Nat.add_right_comm _ i]

namespace Lexer

/-- The state behind further tokens, characters and lines. -/
def behind (i l : Nat) (front : List Token) (x : Lexer) : Lexer where
  cursor := x.cursor.moved i l
  indents := x.indents
  keyAllowed := x.keyAllowed
  candidate := x.candidate.map (·.moved i l front.length)
  outer := x.outer.map (Option.map (·.moved i l front.length))
  tokens := x.tokens ++ front

variable (front : List Token) (x : Lexer)

@[simp] theorem inFlow_behind : (x.behind i l front).inFlow = x.inFlow := by
  simp [inFlow, behind]

theorem giveUp_map (k : Option Candidate) (n : Nat) :
    giveUp (k.map (·.moved i l n)) = giveUp k := by
  cases k <;> rfl

theorem dropCandidate_behind :
    (x.behind i l front).dropCandidate = x.dropCandidate.map (behind i l front) := by
  simp only [dropCandidate, behind, giveUp_map, map_bind]
  rfl

theorem refresh_moved (n : Nat) (k : Option Candidate) :
    refresh (c.moved i l) (k.map (·.moved i l n))
      = (refresh c k).map (Option.map (·.moved i l n)) := by
  have hany : (k.map (·.moved i l n)).any (·.isStale (c.moved i l)) = k.any (·.isStale c) := by
    cases k <;> simp [Candidate.isStale_moved]
  simp only [refresh, hany, giveUp_map, map_ite, map_bind]
  rfl

theorem mapM_refresh_moved (n : Nat) (ks : List (Option Candidate)) :
    (ks.map (Option.map (·.moved i l n))).mapM (refresh (c.moved i l))
      = (ks.mapM (refresh c)).map (List.map (Option.map (·.moved i l n))) := by
  induction ks with
  | nil => rfl
  | cons k ks ih =>
    simp only [List.map_cons, List.mapM_cons, refresh_moved, ih, bind_map, map_bind]
    rfl

theorem dropStale_behind :
    (x.behind i l front).dropStale = x.dropStale.map (behind i l front) := by
  simp only [dropStale, behind, refresh_moved, mapM_refresh_moved, bind_map, map_bind]
  rfl

theorem propose_behind : (x.behind i l front).propose = x.propose.map (behind i l front) := by
  simp only [propose, dropCandidate_behind, bind_map, map_ite, map_bind]
  have hallowed : (x.behind i l front).keyAllowed = x.keyAllowed := rfl
  rw [hallowed]
  congr 2
  funext y
  simp [behind, Candidate.moved, inFlow]

theorem closeBlocks_behind (deeper : Nat → Bool) :
    closeBlocks deeper (x.behind i l front) = (closeBlocks deeper x).behind i l front := by
  simp only [closeBlocks, inFlow_behind]
  split
  · rfl
  · simp [behind]

theorem openBlock_behind (t : Token) :
    openBlock (x.behind i l front) t = (openBlock x t).behind i l front := by
  simp only [openBlock]
  have hdeeper : (x.behind i l front).isDeeper (x.behind i l front).cursor.column
      = x.isDeeper x.cursor.column := rfl
  rw [hdeeper]
  split <;> rfl

theorem skipGaps_moved (inFlow : Bool) (n : Nat) (allowed : Bool) :
    skipGaps inFlow n allowed (c.moved i l)
      = movedAfter i l (skipGaps inFlow n allowed c) := by
  induction n generalizing allowed c with
  | zero => rfl
  | succ n ih =>
    simp only [skipGaps, Cursor.dropWhile_moved, Cursor.dropComment_moved, Cursor.lineEnd?_moved]
    cases ((c.dropWhile (· == ' ')).dropComment).lineEnd? with
    | none => rfl
    | some r => simp [ih]

theorem closeDocument_behind :
    (x.behind i l front).closeDocument = x.closeDocument.map (behind i l front) := by
  simp only [closeDocument, closeBlocks_behind, dropCandidate_behind, bind_map, map_bind]
  rfl

theorem readEnd_behind : (x.behind i l front).readEnd = x.readEnd.map (behind i l front) := by
  simp only [readEnd, closeDocument_behind, bind_map, map_bind]
  congr 1
  funext y
  simp only [behind, emit, map_pure, List.map_map, List.cons_append]
  rfl

theorem readMark_behind (t : Token) :
    (x.behind i l front).readMark t = (x.readMark t).map (behind i l front) := by
  simp only [readMark, closeDocument_behind, bind_map, map_bind]
  congr 1
  funext y
  simp [behind, emitAt]

theorem readFlowStart_behind (t : Token) :
    (x.behind i l front).readFlowStart t = (x.readFlowStart t).map (behind i l front) := by
  simp only [readFlowStart, propose_behind, bind_map, map_bind]
  congr 1
  funext y
  simp [behind, emitAt]

theorem readFlowEnd_behind (t : Token) :
    (x.behind i l front).readFlowEnd t = (x.readFlowEnd t).map (behind i l front) := by
  simp only [readFlowEnd, dropCandidate_behind, bind_map, map_bind]
  congr 1
  funext y
  cases h : y.outer <;> simp [behind, emitAt, h]

theorem readFlowEntry_behind :
    (x.behind i l front).readFlowEntry = x.readFlowEntry.map (behind i l front) := by
  simp only [readFlowEntry, dropCandidate_behind, bind_map, map_bind]
  congr 1
  funext y
  simp [behind, emitAt]

theorem keyAllowed_behind : (x.behind i l front).keyAllowed = x.keyAllowed := rfl

/-- The block collection that an entry, a key or a value opens, except inside brackets. -/
theorem opened_behind (t : Token) :
    (if x.inFlow then x.behind i l front else (x.behind i l front).openBlock t)
      = (if x.inFlow then x else x.openBlock t).behind i l front := by
  rw [openBlock_behind]
  split <;> rfl

theorem readBlockEntry_behind :
    (x.behind i l front).readBlockEntry = x.readBlockEntry.map (behind i l front) := by
  simp only [readBlockEntry, inFlow_behind, keyAllowed_behind, opened_behind,
    dropCandidate_behind, bind_map, map_bind, map_ite]
  split
  · rfl
  · congr 1
    funext y
    simp [behind, emitAt]

theorem readKey_behind : (x.behind i l front).readKey = x.readKey.map (behind i l front) := by
  simp only [readKey, inFlow_behind, keyAllowed_behind, opened_behind, dropCandidate_behind,
    bind_map, map_bind, map_ite]
  split
  · rfl
  · congr 1
    funext y
    simp [behind, emitAt]

theorem readValue_behind :
    (x.behind i l front).readValue = x.readValue.map (behind i l front) := by
  have hcandidate : (x.behind i l front).candidate
      = x.candidate.map (·.moved i l front.length) := rfl
  rw [readValue, readValue, hcandidate]
  cases x.candidate with
  | none =>
    simp only [Option.map_none, inFlow_behind, keyAllowed_behind, opened_behind,
      dropCandidate_behind, bind_map, map_bind, map_ite]
    split
    · rfl
    · congr 1
      funext y
      simp [behind, emitAt]
  | some k =>
    have hdeeper : (x.behind i l front).isDeeper (k.moved i l front.length).column
        = x.isDeeper k.column := rfl
    have hafter : (x.tokens ++ front).length - (k.position + front.length)
        = x.tokens.length - k.position := by
      rw [List.length_append]
      omega
    have hle : x.tokens.length - k.position ≤ x.tokens.length := Nat.sub_le ..
    simp only [Option.map_some, inFlow_behind, hdeeper]
    split <;>
      simp only [insertAt, behind, emitAt, Candidate.moved, hafter,
        List.take_append_of_le_length hle, List.drop_append_of_le_length hle, Cursor.next_moved,
        map_pure, List.append_assoc, List.cons_append, Option.map_none]

theorem readProposed_behind {read : Cursor → Except Error (α × Cursor)}
    (hread : ∀ c, read (c.moved i l) = (read c).map (movedAfter i l)) (t : α → Token) :
    (x.behind i l front).readProposed (fun c => do
        let (a, c) ← read c
        return (t a, c))
      = (x.readProposed fun c => do
          let (a, c) ← read c
          return (t a, c)).map (behind i l front) := by
  simp only [readProposed, propose_behind, bind_map, map_bind]
  congr 1
  funext y
  have hcursor : (y.behind i l front).cursor = y.cursor.moved i l := rfl
  simp only [hcursor, hread, bind_map, bind_assoc]
  rfl

theorem readBlockScalar_behind (folded : Bool) :
    (x.behind i l front).readBlockScalar folded
      = (x.readBlockScalar folded).map (behind i l front) := by
  simp only [readBlockScalar, dropCandidate_behind, bind_map, map_bind]
  congr 1
  funext y
  have hcursor : (y.behind i l front).cursor = y.cursor.moved i l := rfl
  have hindents : (y.behind i l front).indents = y.indents := rfl
  simp only [hcursor, hindents, readBlock_moved, bind_map]
  rfl

theorem readPlainScalar_behind :
    (x.behind i l front).readPlainScalar = x.readPlainScalar.map (behind i l front) := by
  simp only [readPlainScalar, propose_behind, bind_map, map_bind]
  congr 1
  funext y
  have hcursor : (y.behind i l front).cursor = y.cursor.moved i l := rfl
  have hindents : (y.behind i l front).indents = y.indents := rfl
  simp only [hcursor, hindents, inFlow_behind, readPlain_moved]
  rfl

/-- Every token is read in the same way behind other text. -/
theorem readToken_behind : (x.behind i l front).readToken = x.readToken.map (behind i l front) := by
  have hcursor : (x.behind i l front).cursor = x.cursor.moved i l := rfl
  simp only [readToken, hcursor, Cursor.rest_moved, Cursor.column_moved]
  cases x.cursor.rest with
  | nil => exact readEnd_behind i l front x
  | cons ch rest =>
    simp only [inFlow_behind, closeDocument_behind, readMark_behind, readFlowStart_behind,
      readFlowEnd_behind, readFlowEntry_behind, readBlockEntry_behind, readKey_behind,
      readValue_behind, readProposed_behind i l front x (readName_moved i l),
      readProposed_behind i l front x (readTag_moved i l),
      readProposed_behind i l front x (readQuoted_moved i l · _) (Token.scalar · false),
      readBlockScalar_behind, readPlainScalar_behind, readDirective_moved, bind_map, map_ite,
      map_bind]
    rfl

variable (i l : Nat) (front : List Token)

/-- The lexer goes to the next token in the same way everywhere but at the start of a text. -/
theorem exists_step_behind (x : Lexer) :
    ∃ y : Except Error Lexer, ∀ i l front,
      (x.behind (i + 1) l front).step = y.map (behind (i + 1) l front) := by
  let gaps := skipGaps x.inFlow (x.cursor.rest.length + 1) x.keyAllowed x.cursor
  let x' : Lexer := { x with keyAllowed := gaps.1, cursor := gaps.2 }
  refine ⟨do
    let y ← x'.dropStale
    (y.closeBlocks (y.cursor.column < ·)).readToken, fun i l front => ?_⟩
  have hindex : ((x.behind (i + 1) l front).cursor.index == 0) = false := by
    simp [behind]
  have htoken : (x.behind (i + 1) l front).toToken = x'.behind (i + 1) l front := by
    simp only [toToken, hindex, Bool.false_and, Bool.false_eq_true, if_false, inFlow_behind]
    have hcursor : (x.behind (i + 1) l front).cursor = x.cursor.moved (i + 1) l := rfl
    simp only [hcursor, skipGaps_moved, Cursor.rest_moved, keyAllowed_behind]
    rfl
  rw [step, htoken, dropStale_behind, bind_map, map_bind]
  congr 1
  funext y
  have hcolumn : (y.behind (i + 1) l front).cursor.column = y.cursor.column := rfl
  rw [hcolumn, closeBlocks_behind, readToken_behind]

end Lexer

/-! ## Runs of the lexer -/

namespace TokenStream

variable {i l j m n : Nat} {front ts : List Token} {x : Lexer}

theorem head?_append_eq_streamEnd (hfront : front.head? ≠ some .streamEnd) (tokens : List Token) :
    (tokens ++ front).head? = some .streamEnd ↔ tokens.head? = some .streamEnd := by
  cases tokens with
  | nil => simpa using hfront
  | cons t ts => rfl

/-- **The place of a text does not matter.** If a text is read to its end, it has the same tokens
behind other text. -/
theorem ofLexer_behind (hfront : front.head? ≠ some .streamEnd)
    (h : ofLexer n (x.behind (i + 1) l []) = ⟨ts, none⟩) :
    ofLexer n (x.behind (j + 1) m front) = ⟨front.reverse ++ ts, none⟩ := by
  induction n generalizing x with
  | zero => cases h
  | succ n ih =>
    obtain ⟨y, hy⟩ := Lexer.exists_step_behind x
    rw [ofLexer, hy] at h ⊢
    cases y with
    | error e => cases h
    | ok y =>
      have hends := head?_append_eq_streamEnd hfront y.tokens
      have hends' := @head?_append_eq_streamEnd [] nofun y.tokens
      simp only [Except.map, Lexer.behind, hends, hends'] at h ⊢
      split at h
      · rw [if_pos ‹_›]
        simpa using h
      · rw [if_neg ‹_›]
        exact ih h

theorem ofLexer_of_step {y : Lexer} (h : x.step = .ok y)
    (hy : y.tokens.head? ≠ some .streamEnd) : ofLexer (n + 1) x = ofLexer n y := by
  rw [ofLexer, h]
  exact if_neg hy

/-- Only the next token counts, not the gap in front of it. -/
theorem ofLexer_of_toToken_eq {y : Lexer} (h : x.toToken = y.toToken)
    (hy : ofLexer n y = ⟨ts, none⟩) : ofLexer n x = ⟨ts, none⟩ := by
  cases n with
  | zero => cases hy
  | succ n =>
    have hstep : x.step = y.step := by rw [Lexer.step, Lexer.step, h]
    rw [ofLexer] at hy ⊢
    rw [hstep]
    cases hz : y.step with
    | error e => simp [hz] at hy
    | ok z => rwa [hz] at hy

/-- More steps than are needed change nothing. -/
theorem ofLexer_of_le (h : ofLexer n x = ⟨ts, none⟩) (hle : n ≤ m) : ofLexer m x = ⟨ts, none⟩ := by
  induction n generalizing x m with
  | zero => cases h
  | succ n ih =>
    obtain ⟨m, rfl⟩ := Nat.exists_eq_add_of_le' (Nat.le_trans (Nat.succ_pos n) hle)
    rw [ofLexer] at h ⊢
    cases hstep : x.step with
    | error e => simp [hstep] at h
    | ok y =>
      simp only [hstep] at h ⊢
      split at h
      · rwa [if_pos ‹_›]
      · rw [if_neg ‹_›]
        exact ih h (Nat.le_of_succ_le_succ hle)

end TokenStream

end ThreatTree.Yaml
