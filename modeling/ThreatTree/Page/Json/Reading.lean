import ThreatTree.Page.Json
import ThreatTree.Decimal.Reading

/-!
# Reading JSON

A reader for JSON texts made of strings, natural numbers, arrays and objects. A string is read
as UTF-16 units, since a character outside the Basic Multilingual Plane is escaped as two of
them, and then turned into characters.

`read?` cuts a text into tokens and builds a tree of them. `Tree.get?` and `Tree.range?` say
what a script finds in the table of offsets.
-/

namespace ThreatTree.Json

/-! ## Strings -/

/-- The value of four hexadecimal digits. -/
def hex4? (ds : List Char) : Option Nat :=
  (ds.mapM (Text.digitIn? 16)).map (Decimal.ofDigits 16)

/-- The character that a letter after a backslash stands for. -/
def ofShortEscape? (c : Char) : Option Char :=
  [('"', '"'), ('\\', '\\'), ('/', '/'), ('n', '\n'), ('r', '\r'), ('t', '\t'), ('f', '\x0c'),
    ('b', '\x08')].lookup c

/-- The units of a string up to the quote that ends it, and what follows the quote. -/
def cutString : List Char → Option (List Nat × List Char)
  | [] => none
  | '"' :: rest => some ([], rest)
  | '\\' :: 'u' :: a :: b :: c :: d :: rest =>
    (hex4? [a, b, c, d]).bind fun u => (cutString rest).map fun p => (u :: p.1, p.2)
  | '\\' :: c :: rest =>
    (ofShortEscape? c).bind fun c => (cutString rest).map fun p => (Text.toUnits c ++ p.1, p.2)
  | c :: rest =>
    if c.toNat < 0x20 then none
    else (cutString rest).map fun p => (Text.toUnits c ++ p.1, p.2)

theorem length_of_cutString {s : List Char} {p : List Nat × List Char}
    (h : cutString s = some p) : p.2.length < s.length := by
  fun_induction cutString s generalizing p with
  | case1 => simp at h
  | case2 rest => simp only [Option.some.injEq] at h; simp [← h]
  | case3 a b c d rest ih =>
    obtain ⟨u, -, hu⟩ := Option.bind_eq_some_iff.1 h
    obtain ⟨q, hq, rfl⟩ := Option.map_eq_some_iff.1 hu
    have := ih hq
    simp only [List.length_cons]
    omega
  | case4 c rest _ ih =>
    obtain ⟨u, -, hu⟩ := Option.bind_eq_some_iff.1 h
    obtain ⟨q, hq, rfl⟩ := Option.map_eq_some_iff.1 hu
    have := ih hq
    simp only [List.length_cons]
    omega
  | case5 => simp at h
  | case6 c rest _ _ _ _ ih =>
    obtain ⟨q, hq, rfl⟩ := Option.map_eq_some_iff.1 h
    have := ih hq
    simp only [List.length_cons]
    omega

/-! ## Tokens -/

inductive Token where
  | number (n : Nat)
  | text (s : List Char)
  | comma
  | colon
  | openArray
  | closeArray
  | openObject
  | closeObject
  deriving DecidableEq, Repr

/-- The value of a run of ASCII digits. -/
def number (ds : List Char) : Nat := Decimal.ofDigits 10 (ds.map fun c => c.toNat - '0'.toNat)

/-- No zero stands in front of another digit. -/
def isNumeral (ds : List Char) : Bool := ds.head? != some '0' || ds.length == 1

/-- The tokens of a text, if it has nothing else but blanks. -/
def tokens? : List Char → Option (List Token)
  | [] => some []
  | ' ' :: rest => tokens? rest
  | ',' :: rest => (tokens? rest).map (.comma :: ·)
  | ':' :: rest => (tokens? rest).map (.colon :: ·)
  | '[' :: rest => (tokens? rest).map (.openArray :: ·)
  | ']' :: rest => (tokens? rest).map (.closeArray :: ·)
  | '\x7b' :: rest => (tokens? rest).map (.openObject :: ·)
  | '\x7d' :: rest => (tokens? rest).map (.closeObject :: ·)
  | '"' :: rest =>
    match h : cutString rest with
    | none => none
    | some p =>
      have := length_of_cutString h
      (Text.ofUnits? p.1).bind fun s => (tokens? p.2).map (.text s :: ·)
  | c :: rest =>
    have := (List.dropWhile_sublist Char.isDigit (l := rest)).length_le
    let digits := c :: rest.takeWhile Char.isDigit
    if c.isDigit && isNumeral digits then
      (tokens? (rest.dropWhile Char.isDigit)).map (.number (number digits) :: ·)
    else none
termination_by s => s.length
decreasing_by
  all_goals
    simp only [List.length_cons]
    omega

theorem tokens?_nil : tokens? [] = some [] := by rw [tokens?]

theorem tokens?_blank (rest : List Char) : tokens? (' ' :: rest) = tokens? rest := by rw [tokens?]

/-- The characters that are tokens by themselves. -/
def marks : List (Char × Token) :=
  [(',', .comma), (':', .colon), ('[', .openArray), (']', .closeArray), ('\x7b', .openObject),
    ('\x7d', .closeObject)]

theorem tokens?_mark {c : Char} {t : Token} (h : (c, t) ∈ marks) (rest : List Char) :
    tokens? (c :: rest) = (tokens? rest).map (t :: ·) := by
  simp only [marks, List.mem_cons, Prod.mk.injEq, List.not_mem_nil, or_false] at h
  rcases h with ⟨rfl, rfl⟩ | ⟨rfl, rfl⟩ | ⟨rfl, rfl⟩ | ⟨rfl, rfl⟩ | ⟨rfl, rfl⟩ | ⟨rfl, rfl⟩ <;>
    rw [tokens?]

/-! ## Trees -/

/-- A value as it is read. -/
inductive Tree where
  | number (n : Nat)
  | text (s : List Char)
  | array (items : List Tree)
  | object (members : List (List Char × Tree))
  deriving Repr

mutual

/-- The value at the start of the tokens, and the tokens after it. The first argument bounds
the depth of the recursion. -/
def tree? : Nat → List Token → Option (Tree × List Token)
  | 0, _ => none
  | _ + 1, .number n :: rest => some (.number n, rest)
  | _ + 1, .text s :: rest => some (.text s, rest)
  | _ + 1, .openArray :: .closeArray :: rest => some (.array [], rest)
  | n + 1, .openArray :: rest => (items? n rest).map fun p => (.array p.1, p.2)
  | _ + 1, .openObject :: .closeObject :: rest => some (.object [], rest)
  | n + 1, .openObject :: rest => (members? n rest).map fun p => (.object p.1, p.2)
  | _ + 1, _ => none

/-- The items up to the end of an array. -/
def items? : Nat → List Token → Option (List Tree × List Token)
  | 0, _ => none
  | n + 1, ts =>
    match tree? n ts with
    | some (t, .comma :: rest) => (items? n rest).map fun p => (t :: p.1, p.2)
    | some (t, .closeArray :: rest) => some ([t], rest)
    | _ => none

/-- The members up to the end of an object. -/
def members? : Nat → List Token → Option (List (List Char × Tree) × List Token)
  | 0, _ => none
  | n + 1, .text key :: .colon :: ts =>
    match tree? n ts with
    | some (t, .comma :: rest) => (members? n rest).map fun p => ((key, t) :: p.1, p.2)
    | some (t, .closeObject :: rest) => some ([(key, t)], rest)
    | _ => none
  | _ + 1, _ => none

end

/-- The value of a text. -/
def read? (s : List Char) : Option Tree :=
  (tokens? s).bind fun ts =>
    match tree? (2 * ts.length + 1) ts with
    | some (t, []) => some t
    | _ => none

namespace Tree

/-- The member of an object with a name. -/
def get? (name : String) : Tree → Option Tree
  | object members => members.lookup name.toList
  | _ => none

/-- An array of two numbers. -/
def range? : Tree → Option (Nat × Nat)
  | array [number a, number b] => some (a, b)
  | _ => none

end Tree

end ThreatTree.Json
