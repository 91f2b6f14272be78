/-!
# Cutting text into pieces

`splitOn` cuts a text at every occurrence of one character and `join` puts the pieces back
together; `join_splitOn` says that nothing is lost. The lines of a text are its pieces at
line feeds, so a text always has at least one line, and one more than it has line feeds.

Also here: the ways in which line ends are made uniform, and the search for a fixed piece of
text.
-/

namespace ThreatTree.Text

/-! ## Splitting and joining -/

/-- The pieces of a text between the occurrences of `sep`. -/
def splitOn (sep : Char) : List Char → List (List Char)
  | [] => [[]]
  | c :: rest =>
    if c = sep then [] :: splitOn sep rest
    else match splitOn sep rest with
      | [] => [[c]]
      | piece :: pieces => (c :: piece) :: pieces

theorem splitOn_ne_nil (sep : Char) (s : List Char) : splitOn sep s ≠ [] := by
  cases s with
  | nil => simp [splitOn]
  | cons c s =>
    by_cases h : c = sep
    · simp [splitOn, h]
    · simp only [splitOn, h, if_false]
      split <;> simp

/-- The pieces with `sep` between neighbours. -/
def join (sep : List Char) : List (List Char) → List Char
  | [] => []
  | [piece] => piece
  | piece :: pieces => piece ++ sep ++ join sep pieces

theorem join_splitOn (sep : Char) (s : List Char) : join [sep] (splitOn sep s) = s := by
  induction s with
  | nil => rfl
  | cons c s ih =>
    by_cases h : c = sep
    · cases hs : splitOn sep s with
      | nil => exact absurd hs (splitOn_ne_nil sep s)
      | cons p ps =>
        rw [hs] at ih
        simp [splitOn, h, hs, join, ih]
    · cases hs : splitOn sep s with
      | nil => exact absurd hs (splitOn_ne_nil sep s)
      | cons p ps =>
        rw [hs] at ih
        cases ps with
        | nil => simp_all [splitOn, join]
        | cons q qs => simp_all [splitOn, join]

/-- The lines of a text. A line never holds a line feed; it may hold any other break. -/
def lines (s : List Char) : List (List Char) := splitOn '\n' s

/-! ## Line ends -/

/-- Every pair of carriage return and line feed becomes a line feed. -/
def unixPairs : List Char → List Char
  | '\r' :: '\n' :: rest => '\n' :: unixPairs rest
  | c :: rest => c :: unixPairs rest
  | [] => []

/-- Every line feed becomes a pair of carriage return and line feed. -/
def dosPairs (s : List Char) : List Char :=
  s.flatMap fun c => if c = '\n' then ['\r', '\n'] else [c]

/-- Every line end, be it a pair, a carriage return or a line feed, becomes a line feed. -/
def unixLines : List Char → List Char
  | '\r' :: '\n' :: rest => '\n' :: unixLines rest
  | '\r' :: rest => '\n' :: unixLines rest
  | c :: rest => c :: unixLines rest
  | [] => []

/-! ## Searching -/

/-- What follows `piece` at the start of the text, if the text starts with it. -/
def dropPiece? : List Char → List Char → Option (List Char)
  | [], s => some s
  | _ :: _, [] => none
  | p :: piece, c :: s => if p = c then dropPiece? piece s else none

/-- The text from the first occurrence of `piece` on. -/
def from? (piece : List Char) : List Char → Option (List Char)
  | [] => if piece.isEmpty then some [] else none
  | c :: s => if (dropPiece? piece (c :: s)).isSome then some (c :: s) else from? piece s

/-- The text in front of the first occurrence of `piece`, if there is one. -/
def upTo? (piece : List Char) : List Char → Option (List Char)
  | [] => if piece.isEmpty then some [] else none
  | c :: s =>
    if (dropPiece? piece (c :: s)).isSome then some [] else (upTo? piece s).map (c :: ·)

/-- The first occurrence of `piece` replaced by `other`. -/
def replaceFirst (piece other : List Char) : List Char → List Char
  | [] => if piece.isEmpty then other else []
  | c :: s =>
    match dropPiece? piece (c :: s) with
    | some rest => other ++ rest
    | none => c :: replaceFirst piece other s

end ThreatTree.Text
