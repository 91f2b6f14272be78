import ThreatTree.Text.Lines

/-!
# Plain lines

What is printed goes to a stream that is no terminal, so it holds no control sequence: an escape,
an opening bracket, parameters made of digits, `;` and `?`, and one Latin letter. A text that
holds no escape is kept as it is (`plain_of_no_escape`), and a whole sequence leaves nothing
behind (`plain_sequence`).
-/

namespace ThreatTree.Text

/-- The character that opens a control sequence. -/
def escape : Char := '\x1b'

/-- The characters between the bracket and the letter of a control sequence. -/
def isParameter (c : Char) : Bool := c.isDigit || c == ';' || c == '?'

/-- The length of parameters and a letter at the start of the text, if they stand there. -/
def parametersLength? : List Char → Option Nat
  | [] => none
  | c :: s => if isParameter c then (parametersLength? s).map (· + 1)
    else if c.isAlpha then some 1 else none

/-- The length of the control sequence at the start of the text; zero where none stands. -/
def sequenceLength : List Char → Nat
  | c :: '[' :: s => if c = escape then ((parametersLength? s).map (· + 2)).getD 0 else 0
  | _ => 0

/-- The text without its first `skip` characters and without the control sequences after them. -/
def plainFrom : Nat → List Char → List Char
  | _, [] => []
  | skip + 1, _ :: s => plainFrom skip s
  | 0, c :: s =>
    match sequenceLength (c :: s) with
    | 0 => c :: plainFrom 0 s
    | n + 1 => plainFrom n s

/-- The text without its control sequences. -/
def plain (s : List Char) : List Char := plainFrom 0 s

theorem sequenceLength_of_ne {c : Char} (h : c ≠ escape) (s : List Char) :
    sequenceLength (c :: s) = 0 := by
  unfold sequenceLength
  split
  · next heq => cases heq; simp [h]
  · rfl

/-- A text without escapes is kept in front of any other. -/
theorem plain_append {s : List Char} (h : escape ∉ s) (t : List Char) :
    plain (s ++ t) = s ++ plain t := by
  induction s with
  | nil => rfl
  | cons c s ih =>
    simp only [List.mem_cons, not_or] at h
    show plainFrom 0 (c :: (s ++ t)) = c :: (s ++ plain t)
    rw [plainFrom, sequenceLength_of_ne (Ne.symm h.1)]
    exact congrArg (c :: ·) (ih h.2)

theorem plain_of_no_escape {s : List Char} (h : escape ∉ s) : plain s = s := by
  have hnil : plain [] = [] := rfl
  have happend := plain_append h []
  rwa [List.append_nil, hnil, List.append_nil] at happend

theorem plainFrom_append (s t : List Char) : plainFrom s.length (s ++ t) = plain t := by
  induction s with
  | nil => rfl
  | cons c s ih => simpa [plainFrom] using ih

/-- A letter is no parameter, so the letter is where the parameters end. -/
theorem isParameter_of_isAlpha {l : Char} (h : l.isAlpha) : isParameter l = false := by
  have hd : l.isDigit = false := by
    cases hd : l.isDigit with
    | false => rfl
    | true =>
      delta Char.isAlpha Char.isUpper Char.isLower at h
      delta Char.isDigit at hd
      simp [UInt32.le_iff_toNat_le] at h hd
      omega
  have hs : l ≠ ';' := by rintro rfl; exact absurd h (by decide)
  have hq : l ≠ '?' := by rintro rfl; exact absurd h (by decide)
  simp [isParameter, hd, hs, hq]

theorem parametersLength?_append {ps : List Char} (h : ∀ c ∈ ps, isParameter c) {l : Char}
    (hl : l.isAlpha) (t : List Char) :
    parametersLength? (ps ++ l :: t) = some (ps.length + 1) := by
  induction ps with
  | nil => simp [parametersLength?, hl, isParameter_of_isAlpha hl]
  | cons c ps ih =>
    simp only [List.mem_cons, forall_eq_or_imp] at h
    simp [parametersLength?, h.1, ih h.2]

theorem plain_sequence {ps : List Char} (h : ∀ c ∈ ps, isParameter c) {l : Char}
    (hl : l.isAlpha) (t : List Char) :
    plain (escape :: '[' :: (ps ++ l :: t)) = plain t := by
  have hs : sequenceLength (escape :: '[' :: (ps ++ l :: t)) = ('[' :: (ps ++ [l])).length + 1 := by
    simp [sequenceLength, parametersLength?_append h hl]
  have happ : '[' :: (ps ++ l :: t) = ('[' :: (ps ++ [l])) ++ t := by simp
  rw [plain, plainFrom, hs, happ]
  exact plainFrom_append _ t

/-- Lines as they are printed: each one plain and with a line feed after it. -/
def printed (lines : List (List Char)) : List Char := lines.flatMap fun l => plain l ++ ['\n']

example : plain "a\x1b[31;1mb\x1b[0m\x1b[x".toList = "ab".toList := by decide
example : plain "\x1b[1\x1b[2Jm".toList = "\x1b[1m".toList := by decide
example : printed ["a\r".toList, "\x1b[mb".toList] = "a\r\nb\n".toList := by decide

end ThreatTree.Text
