import ThreatTree.Document.Malformed

/-!
# Checking records field by field

A record given as a mapping is checked as a whole: all its problems are collected, in the
order of its fields. `Checked` is the applicative that does this; the first of its laws,
`seq_invalid_invalid`, says that the problems of both sides are kept.
-/

namespace ThreatTree.Record

/-- What is wrong with a field. -/
inductive Fault where
  | missing
  | notText
  /-- Bytes that are no text. -/
  | notUnicode
  | notInt
  | notNumeral
  | notWhole
  | notFinite
  /-- A numeral is too long, or a floating-point number too large, for a whole number. -/
  | tooLarge
  | negative
  | notListed
  | notChoice
  | notList
  | tooLong
  | notRecord
  | badValue
  deriving DecidableEq, Repr

/-- A fault and the path to it. -/
structure Problem where
  path : Path
  fault : Fault
  deriving DecidableEq, Repr

/-- A checked value, or the problems that were found. -/
inductive Checked (α : Type) where
  | valid (a : α)
  | invalid (problems : List Problem)
  deriving Repr

namespace Checked

variable {α β : Type}

def map (f : α → β) : Checked α → Checked β
  | valid a => valid (f a)
  | invalid ps => invalid ps

def seq (f : Checked (α → β)) (x : Checked α) : Checked β :=
  match f, x with
  | valid f, valid a => valid (f a)
  | invalid ps, valid _ => invalid ps
  | valid _, invalid qs => invalid qs
  | invalid ps, invalid qs => invalid (ps ++ qs)

instance : Applicative Checked where
  pure := valid
  map := map
  seq f x := seq f (x ())

theorem seq_invalid_invalid (ps qs : List Problem) :
    seq (invalid ps : Checked (α → β)) (invalid qs) = invalid (ps ++ qs) := rfl

/-- A single fault at the value itself. -/
def fail (f : Fault) : Checked α := invalid [⟨[], f⟩]

/-- The problems as seen from a record of which this is the part `s`. -/
def under (s : Step) : Checked α → Checked α
  | valid a => valid a
  | invalid ps => invalid (ps.map fun p => { p with path := s :: p.path })

def toExcept : Checked α → Except (List Problem) α
  | valid a => .ok a
  | invalid ps => .error ps

/-! ## Valid results -/

theorem map_eq_valid_iff {f : α → β} {x : Checked α} {b : β} :
    f <$> x = valid b ↔ ∃ a, x = valid a ∧ f a = b := by
  show map f x = valid b ↔ _
  cases x <;> simp [map]

theorem seq_eq_valid_iff {f : Checked (α → β)} {x : Checked α} {b : β} :
    f <*> x = valid b ↔ ∃ g a, f = valid g ∧ x = valid a ∧ g a = b := by
  show seq f x = valid b ↔ _
  cases f <;> cases x <;> simp [seq]

theorem under_eq_valid_iff {s : Step} {x : Checked α} {a : α} :
    under s x = valid a ↔ x = valid a := by
  cases x <;> simp [under]

theorem toExcept_eq_ok_iff {x : Checked α} {a : α} : x.toExcept = .ok a ↔ x = valid a := by
  cases x <;> simp [toExcept]

end Checked

end ThreatTree.Record
