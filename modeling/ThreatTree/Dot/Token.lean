import ThreatTree.Dot.Identifier

/-!
# Tokens of DOT

What an engine sees of a source text. A quoted identifier ends at the first quote that no
backslash escapes; a backslash takes the character after it along. A bare identifier is the
longest name or numeral, and markup ends where its angle brackets balance.

`tokens?` cuts a text into tokens, dropping blanks and comments that go to the end of a line.
Each token leaves a shorter text (`length_of_cutQuoted`, `length_of_cutMarkup`).
-/

namespace ThreatTree.Dot

/-- An identifier as it is written, without the quotes around it. -/
inductive Identifier where
  | bare (s : List Char)
  | quoted (inside : List Char)
  | markup (s : List Char)
  deriving DecidableEq, Repr

inductive Token where
  | identifier (i : Identifier)
  | arrow
  | equals
  | openBracket
  | closeBracket
  | openBrace
  | closeBrace
  deriving DecidableEq, Repr

/-! ## Identifiers -/

/-- What stands before the quote that ends a quoted identifier, and what follows the quote. -/
def cutQuoted : List Char → Option (List Char × List Char)
  | [] => none
  | '"' :: rest => some ([], rest)
  | '\\' :: c :: rest => (cutQuoted rest).map fun p => ('\\' :: c :: p.1, p.2)
  | c :: rest => (cutQuoted rest).map fun p => (c :: p.1, p.2)

/-- Markup up to the bracket that closes the outermost of `depth` open ones, and what follows
that bracket. -/
def cutMarkup : Nat → List Char → Option (List Char × List Char)
  | _, [] => none
  | depth, '<' :: rest => (cutMarkup (depth + 1) rest).map fun p => ('<' :: p.1, p.2)
  | depth, '>' :: rest =>
    if depth ≤ 1 then some (['>'], rest)
    else (cutMarkup (depth - 1) rest).map fun p => ('>' :: p.1, p.2)
  | depth, c :: rest => (cutMarkup depth rest).map fun p => (c :: p.1, p.2)

/-- A character of a name or a numeral. -/
def isBareChar (c : Char) : Bool := isLetter c || c.isDigit || c == '.'

/-- The text that a quoted identifier stands for: a backslash before a quote is dropped. -/
def unescapeQuotes : List Char → List Char
  | '\\' :: '"' :: rest => '"' :: unescapeQuotes rest
  | '\\' :: c :: rest => '\\' :: c :: unescapeQuotes rest
  | c :: rest => c :: unescapeQuotes rest
  | [] => []

/-- The text that the inside of a quoted label shows: a backslash before a quote or before
another backslash is dropped. -/
def unescape : List Char → List Char
  | '\\' :: '"' :: rest => '"' :: unescape rest
  | '\\' :: '\\' :: rest => '\\' :: unescape rest
  | c :: rest => c :: unescape rest
  | [] => []

namespace Identifier

/-- The text of an identifier. -/
def text : Identifier → List Char
  | bare s => s
  | quoted inside => unescapeQuotes inside
  | markup s => s

/-- The text that an identifier shows as a label. -/
def labelText : Identifier → List Char
  | bare s => s
  | quoted inside => unescape inside
  | markup s => s

end Identifier

/-! ## Lengths -/

theorem length_of_cutQuoted {s : List Char} {p : List Char × List Char}
    (h : cutQuoted s = some p) : p.2.length < s.length := by
  fun_induction cutQuoted s generalizing p with
  | case1 => simp at h
  | case2 rest => simp only [Option.some.injEq] at h; simp [← h]
  | case3 c rest ih =>
    obtain ⟨q, hq, rfl⟩ := Option.map_eq_some_iff.1 h
    have := ih hq
    simp only [List.length_cons]
    omega
  | case4 c rest _ _ ih =>
    obtain ⟨q, hq, rfl⟩ := Option.map_eq_some_iff.1 h
    have := ih hq
    simp only [List.length_cons]
    omega

theorem length_of_cutMarkup {depth : Nat} {s : List Char} {p : List Char × List Char}
    (h : cutMarkup depth s = some p) : p.2.length < s.length := by
  fun_induction cutMarkup depth s generalizing p with
  | case1 => simp at h
  | case2 depth rest ih =>
    obtain ⟨q, hq, rfl⟩ := Option.map_eq_some_iff.1 h
    have := ih hq
    simp only [List.length_cons]
    omega
  | case3 depth rest hd => simp only [Option.some.injEq] at h; simp [← h]
  | case4 depth rest hd ih =>
    obtain ⟨q, hq, rfl⟩ := Option.map_eq_some_iff.1 h
    have := ih hq
    simp only [List.length_cons]
    omega
  | case5 depth c rest _ _ ih =>
    obtain ⟨q, hq, rfl⟩ := Option.map_eq_some_iff.1 h
    have := ih hq
    simp only [List.length_cons]
    omega

theorem length_dropWhile_le (p : Char → Bool) (s : List Char) :
    (s.dropWhile p).length ≤ s.length :=
  (List.dropWhile_sublist p).length_le

/-! ## Cutting a text into tokens -/

/-- The tokens of a text, if it has nothing else but blanks and comments. -/
def tokens? : List Char → Option (List Token)
  | [] => some []
  | '-' :: '>' :: rest => (tokens? rest).map (.arrow :: ·)
  | '/' :: '/' :: rest =>
    have := length_dropWhile_le (· ≠ '\n') rest
    tokens? (rest.dropWhile (· ≠ '\n'))
  | '=' :: rest => (tokens? rest).map (.equals :: ·)
  | '[' :: rest => (tokens? rest).map (.openBracket :: ·)
  | ']' :: rest => (tokens? rest).map (.closeBracket :: ·)
  | '\x7b' :: rest => (tokens? rest).map (.openBrace :: ·)
  | '\x7d' :: rest => (tokens? rest).map (.closeBrace :: ·)
  | '"' :: rest =>
    match h : cutQuoted rest with
    | none => none
    | some p =>
      have := length_of_cutQuoted h
      (tokens? p.2).map (.identifier (.quoted p.1) :: ·)
  | '<' :: rest =>
    match h : cutMarkup 1 rest with
    | none => none
    | some p =>
      have := length_of_cutMarkup h
      (tokens? p.2).map (.identifier (.markup ('<' :: p.1)) :: ·)
  | c :: rest =>
    if c = ' ' || c = '\t' || c = '\n' then tokens? rest
    else
      let bare := c :: rest.takeWhile isBareChar
      have := length_dropWhile_le isBareChar rest
      if isName bare || isNumeral bare then
        (tokens? (rest.dropWhile isBareChar)).map (.identifier (.bare bare) :: ·)
      else none
termination_by s => s.length
decreasing_by
  all_goals
    simp only [List.length_cons]
    omega

end ThreatTree.Dot
