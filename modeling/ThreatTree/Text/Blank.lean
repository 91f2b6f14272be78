/-!
# White space

The white space of Unicode, together with the separator controls U+001C to U+001F, and the
ways in which the library trims and splits text at it. All functions work on lists of
characters.

`words` is pinned by `words_blank_cons` and `words_all_blank`: leading white space is
ignored, and a text of white space alone has no word.
-/

namespace ThreatTree.Text

/-- White space: the Unicode property, and the four separator controls. -/
def isBlank (c : Char) : Bool :=
  let n := c.toNat
  (9 ≤ n && n ≤ 13) || (28 ≤ n && n ≤ 32) || n == 0x85 || n == 0xA0 || n == 0x1680
    || (0x2000 ≤ n && n ≤ 0x200A) || n == 0x2028 || n == 0x2029 || n == 0x202F
    || n == 0x205F || n == 0x3000

/-- Drop leading white space. -/
def trimStart (s : List Char) : List Char := s.dropWhile isBlank

/-- Drop trailing white space. -/
def trimEnd (s : List Char) : List Char := (s.reverse.dropWhile isBlank).reverse

/-- Drop white space at both ends. -/
def trim (s : List Char) : List Char := trimEnd (trimStart s)

/-- The text has no character but white space. -/
def allBlank (s : List Char) : Bool := s.all isBlank

/-- The maximal runs of characters other than white space. -/
def words : List Char → List (List Char)
  | [] => []
  | c :: rest =>
    if isBlank c then words rest
    else match rest with
      | [] => [[c]]
      | d :: _ =>
        if isBlank d then [c] :: words rest
        else match words rest with
          | [] => [[c]]
          | w :: ws => (c :: w) :: ws

theorem words_blank_cons {c : Char} (h : isBlank c = true) (s : List Char) :
    words (c :: s) = words s := by
  simp [words, h]

theorem words_all_blank {s : List Char} (h : allBlank s = true) : words s = [] := by
  induction s with
  | nil => rfl
  | cons c s ih =>
    simp only [allBlank, List.all_cons, Bool.and_eq_true] at h
    rw [words_blank_cons h.1]
    exact ih h.2

end ThreatTree.Text
