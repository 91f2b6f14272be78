import ThreatTree.Text.Units

/-!
# Surrogates

A text is made of characters, and a surrogate is none. But an escape in a data file can name a
surrogate, which is then a part of the text all the same. Here a stand-in takes its place, a
private-use character (`standIn`). It tells the surrogate (`surrogateOf_standIn`), so texts with
different surrogates stay different.

A text with a surrogate has no UTF-8 form: it can be neither printed nor written to a file. A
stand-in alone does not show that a text has one, since a file may hold that character itself. So
what a file says is also read with other numbers in its escapes for surrogates (`mask`). A text
that has fewer stand-ins there has surrogates (`Twice.hasSurrogate`). A file without such an
escape (`namesSurrogate_iff`) says the same both times.
-/

namespace ThreatTree.Text

/-- The number is that of a surrogate. -/
def isSurrogate (n : Nat) : Bool := isHigh n || isLow n

theorem isSurrogate_iff {n : Nat} : isSurrogate n = true ↔ 0xD800 ≤ n ∧ n < 0xE000 := by
  simp only [isSurrogate, isHigh, isLow, Bool.or_eq_true, Bool.and_eq_true, decide_eq_true_eq]
  omega

/-! ## Stand-ins -/

/-- The number of the first stand-in. -/
def firstStandIn : Nat := 0x10F000

/-- What stands for the surrogate with a number. -/
def standIn (n : Nat) : Char := Char.ofNat (firstStandIn + (n - 0xD800))

def isStandIn (c : Char) : Bool := firstStandIn ≤ c.toNat && c.toNat < firstStandIn + 0x800

/-- How many stand-ins a text has. -/
def standIns (s : String) : Nat := s.toList.countP isStandIn

theorem toNat_standIn {n : Nat} (h : isSurrogate n = true) :
    (standIn n).toNat = firstStandIn + (n - 0xD800) := by
  obtain ⟨hfirst, hlast⟩ := isSurrogate_iff.1 h
  have hvalid : (firstStandIn + (n - 0xD800)).isValidChar := by
    simp only [Nat.isValidChar, firstStandIn]
    omega
  rw [standIn, Char.ofNat, dif_pos hvalid]
  rfl

theorem isStandIn_standIn {n : Nat} (h : isSurrogate n = true) : isStandIn (standIn n) = true := by
  obtain ⟨hfirst, hlast⟩ := isSurrogate_iff.1 h
  simp only [isStandIn, toNat_standIn h, Bool.and_eq_true, decide_eq_true_eq]
  omega

/-- The number of the surrogate for which a stand-in stands. -/
def surrogateOf (c : Char) : Nat := c.toNat - firstStandIn + 0xD800

theorem surrogateOf_standIn {n : Nat} (h : isSurrogate n = true) : surrogateOf (standIn n) = n := by
  obtain ⟨hfirst, -⟩ := isSurrogate_iff.1 h
  rw [surrogateOf, toNat_standIn h]
  omega

/-! ## Escapes for surrogates -/

/-- The text, given last character first, ends where the last four digits of an escape start. -/
def endsBeforeNumber : List Char → Bool
  | 'u' :: '\\' :: _ => true
  | '0' :: '0' :: '0' :: '0' :: 'U' :: '\\' :: _ => true
  | _ => false

/-- The number of a surrogate starts with this character in an escape: `before` is what stands in
front of it, last character first, and `after` is what follows. -/
def startsSurrogate (before : List Char) (c : Char) (after : List Char) : Bool :=
  endsBeforeNumber before && (c == 'D' || c == 'd')
    && after.head?.any fun d => "89ABCDEFabcdef".toList.contains d

def maskFrom (before : List Char) : List Char → List Char
  | [] => []
  | c :: s => (if startsSurrogate before c s then 'E' else c) :: maskFrom (c :: before) s

/-- The text with escapes for private-use characters in place of those for surrogates. -/
def mask (s : List Char) : List Char := maskFrom [] s

/-- Somewhere in the text stands what is the escape for a surrogate between double quotes. -/
def NamesSurrogate (s : List Char) : Prop := mask s ≠ s

instance (s : List Char) : Decidable (NamesSurrogate s) := inferInstanceAs (Decidable (_ ≠ _))

theorem maskFrom_eq_self_iff {before s : List Char} : maskFrom before s = s
    ↔ ∀ front c rest, s = front ++ c :: rest →
      startsSurrogate (front.reverse ++ before) c rest = false := by
  induction s generalizing before with
  | nil => simp [maskFrom]
  | cons c s ih =>
    have hhead : (if startsSurrogate before c s then 'E' else c) = c
        ↔ startsSurrogate before c s = false := by
      cases hstarts : startsSurrogate before c s with
      | false => simp
      | true =>
        -- The character that is replaced is no `E`.
        have hne : c ≠ 'E' := by
          rintro rfl
          simp [startsSurrogate] at hstarts
        simpa using Ne.symm hne
    rw [maskFrom, List.cons.injEq, hhead, ih]
    constructor
    · rintro ⟨hc, hs⟩ front d rest heq
      cases front with
      | nil =>
        obtain ⟨rfl, rfl⟩ := List.cons.inj heq
        exact hc
      | cons e front =>
        obtain ⟨rfl, rfl⟩ := List.cons.inj heq
        rw [List.reverse_cons, List.append_assoc]
        exact hs front d rest rfl
    · intro h
      refine ⟨h [] c s rfl, ?_⟩
      rintro front d rest rfl
      have hrest := h (c :: front) d rest rfl
      rwa [List.reverse_cons, List.append_assoc] at hrest

/-- A text names a surrogate if one of its escapes has the number of one. -/
theorem namesSurrogate_iff {s : List Char} : NamesSurrogate s
    ↔ ∃ front c rest, s = front ++ c :: rest
      ∧ startsSurrogate front.reverse c rest = true := by
  rw [NamesSurrogate, mask, ne_eq, maskFrom_eq_self_iff]
  simp

example : NamesSurrogate "a: \"\\uD83D\"".toList := by decide +kernel
example : mask "\\uD7FF\\U0000dFFF\\xD8".toList = "\\uD7FF\\U0000EFFF\\xD8".toList := by
  decide +kernel

end ThreatTree.Text

namespace ThreatTree

/-- What is read from a file, and what is read from it with its surrogates masked. -/
structure Twice (α : Type) where
  plain : α
  masked : α
  deriving DecidableEq, Repr

namespace Twice

variable {ε α : Type}

/-- Read a text as it is, and again with its surrogates masked. -/
def read (reader : String → Except ε α) (text : String) : Except ε (Twice α) :=
  (reader text).map fun a =>
    ⟨a, (reader (String.ofList (Text.mask text.toList))).toOption.getD a⟩

/-- A surrogate stands in a text that is made from what was read. -/
def hasSurrogate (t : Twice α) (text : α → String) : Bool :=
  Text.standIns (text t.masked) < Text.standIns (text t.plain)

variable {reader : String → Except ε α} {text : String} {t : Twice α}

end Twice

end ThreatTree
