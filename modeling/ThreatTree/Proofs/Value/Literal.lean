import Mathlib.Data.Nat.Digits.Defs
import ThreatTree.Value.Literal

/-!
# Values that messages can show

A message shows a value by its literal, and only a whole number that is too long has none. So a
value has a literal if it holds no such number (`exists_literal?`).
-/

namespace ThreatTree.Value

mutual

/-- No whole number in the value has more digits than can be written. -/
def isShort : Value → Bool
  | .int n => n.natAbs < 10 ^ Decimal.digitLimit
  | .list items | .tuple items | .set items => areShort items
  | .mapping entries => entriesAreShort entries
  | _ => true

def areShort : List Value → Bool
  | [] => true
  | v :: vs => isShort v && areShort vs

def entriesAreShort : List (Value × Value) → Bool
  | [] => true
  | (k, v) :: rest => isShort k && isShort v && entriesAreShort rest

end

theorem areShort_iff {vs : List Value} : areShort vs = true ↔ ∀ v ∈ vs, v.isShort = true := by
  induction vs with
  | nil => simp [areShort]
  | cons v vs ih => simp [areShort, ih]

theorem entriesAreShort_iff {entries : Entries} :
    entriesAreShort entries = true ↔ ∀ e ∈ entries, e.1.isShort = true ∧ e.2.isShort = true := by
  induction entries with
  | nil => simp [entriesAreShort]
  | cons e entries ih =>
    obtain ⟨k, v⟩ := e
    simp [entriesAreShort, ih]

theorem isShort_of_get? {name : String} {entries : Entries} {v : Value}
    (h : entriesAreShort entries = true) (hv : entries.get? name = some v) : v.isShort = true :=
  (entriesAreShort_iff.1 h _ (Entries.mem_of_get? hv)).2

theorem exists_intText? {n : Int} (h : n.natAbs < 10 ^ Decimal.digitLimit) :
    ∃ t, intText? n = some t := by
  have hlength : (toString n.natAbs).length ≤ Decimal.digitLimit :=
    Nat.repr_length _ _ (by decide) h
  exact ⟨toString n, if_neg (Nat.not_lt.2 hlength)⟩

mutual

/-- A value without long numbers has a literal. -/
theorem exists_literal? (v : Value) (h : v.isShort = true) : ∃ t, v.literal? = some t := by
  cases v with
  | int n =>
    rw [isShort, decide_eq_true_eq] at h
    exact exists_intText? h
  | list items | tuple items | set items =>
    obtain ⟨ts, hts⟩ := exists_literals? items h
    exact ⟨_, by rw [literal?, hts]; rfl⟩
  | mapping entries =>
    obtain ⟨ts, hts⟩ := exists_entryLiterals? entries h
    exact ⟨_, by rw [literal?, hts]; rfl⟩
  | _ => exact ⟨_, rfl⟩

theorem exists_literals? (vs : List Value) (h : areShort vs = true) :
    ∃ ts, literals? vs = some ts := by
  cases vs with
  | nil => exact ⟨[], rfl⟩
  | cons v vs =>
    rw [areShort, Bool.and_eq_true] at h
    obtain ⟨t, ht⟩ := exists_literal? v h.1
    obtain ⟨ts, hts⟩ := exists_literals? vs h.2
    exact ⟨t :: ts, by rw [literals?, ht, hts]; rfl⟩

theorem exists_entryLiterals? (entries : List (Value × Value))
    (h : entriesAreShort entries = true) : ∃ ts, entryLiterals? entries = some ts := by
  match entries with
  | [] => exact ⟨[], rfl⟩
  | (k, v) :: rest =>
    rw [entriesAreShort, Bool.and_eq_true, Bool.and_eq_true] at h
    obtain ⟨key, hkey⟩ := exists_literal? k h.1.1
    obtain ⟨value, hvalue⟩ := exists_literal? v h.1.2
    obtain ⟨ts, hts⟩ := exists_entryLiterals? rest h.2
    exact ⟨(key ++ ": " ++ value) :: ts, by rw [entryLiterals?, hkey, hvalue, hts]; rfl⟩

end

theorem exists_text? {v : Value} (h : v.isShort = true) : ∃ t, v.text? = some t := by
  unfold text?
  split
  · exact ⟨_, rfl⟩
  · exact ⟨_, rfl⟩
  · exact ⟨_, rfl⟩
  · exact exists_literal? v h

end ThreatTree.Value
