/-!
# UTF-16 units

A browser counts the characters of a text in units of sixteen bits: a character of the
Basic Multilingual Plane is one unit, any other is a pair of surrogates. `ofUnits?` reads units
back; `ofUnits?_flatMap_toUnits` says that it undoes `toUnits`.
-/

namespace ThreatTree.Text

/-- The number of UTF-16 units of a character. -/
def charUnits (c : Char) : Nat := if c.toNat < 0x10000 then 1 else 2

/-- The number of UTF-16 units of a text. -/
def units : List Char → Nat
  | [] => 0
  | c :: s => charUnits c + units s

theorem units_append (s t : List Char) : units (s ++ t) = units s + units t := by
  induction s with
  | nil => simp [units]
  | cons c s ih => simp [units, ih, Nat.add_assoc]

/-- The units of a character: itself, or its high and its low surrogate. -/
def toUnits (c : Char) : List Nat :=
  let n := c.toNat
  if n < 0x10000 then [n]
  else [0xD800 + (n - 0x10000) / 0x400, 0xDC00 + (n - 0x10000) % 0x400]

theorem length_toUnits (c : Char) : (toUnits c).length = charUnits c := by
  by_cases h : c.toNat < 0x10000 <;> simp [toUnits, charUnits, h]

/-! ## Reading units -/

def isHigh (u : Nat) : Bool := 0xD800 ≤ u && u < 0xDC00

def isLow (u : Nat) : Bool := 0xDC00 ≤ u && u < 0xE000

/-- The text with these units, if every surrogate is part of a pair. -/
def ofUnits? : List Nat → Option (List Char)
  | [] => some []
  | [u] => if isHigh u || isLow u then none else some [Char.ofNat u]
  | u :: v :: rest =>
    if isHigh u && isLow v then
      (ofUnits? rest).map (Char.ofNat (0x10000 + (u - 0xD800) * 0x400 + (v - 0xDC00)) :: ·)
    else if isHigh u || isLow u then none
    else (ofUnits? (v :: rest)).map (Char.ofNat u :: ·)

theorem ofUnits?_single_cons {u : Nat} (h : (isHigh u || isLow u) = false) (us : List Nat) :
    ofUnits? (u :: us) = (ofUnits? us).map (Char.ofNat u :: ·) := by
  obtain ⟨hh, hl⟩ := Bool.or_eq_false_iff.1 h
  cases us with
  | nil => simp [ofUnits?, hh, hl]
  | cons v us => simp [ofUnits?, hh, hl]

theorem ofUnits?_toUnits_append (c : Char) (us : List Nat) :
    ofUnits? (toUnits c ++ us) = (ofUnits? us).map (c :: ·) := by
  have hc : Char.ofNat c.toNat = c := Char.ofNat_toNat c
  have hv := c.valid
  by_cases h : c.toNat < 0x10000
  · have hs : (isHigh c.toNat || isLow c.toNat) = false := by
      simp only [isHigh, isLow, Bool.or_eq_false_iff, Bool.and_eq_false_iff,
        decide_eq_false_iff_not]
      simp only [UInt32.isValidChar, Nat.isValidChar, Char.toNat_val] at hv
      omega
    simp [toUnits, h, ofUnits?_single_cons hs, hc]
  · have hlt : c.toNat < 0x110000 := by
      simp only [UInt32.isValidChar, Nat.isValidChar, Char.toNat_val] at hv
      omega
    have hu : isHigh (0xD800 + (c.toNat - 0x10000) / 0x400) = true := by
      simp only [isHigh, Bool.and_eq_true, decide_eq_true_eq]
      omega
    have hl : isLow (0xDC00 + (c.toNat - 0x10000) % 0x400) = true := by
      simp only [isLow, Bool.and_eq_true, decide_eq_true_eq]
      omega
    have hn : 0x10000 + (c.toNat - 0x10000) / 0x400 * 0x400 + (c.toNat - 0x10000) % 0x400
        = c.toNat := by omega
    simp [toUnits, h, ofUnits?, hu, hl, hn, hc]

theorem ofUnits?_flatMap_toUnits (s : List Char) : ofUnits? (s.flatMap toUnits) = some s := by
  induction s with
  | nil => rfl
  | cons c s ih => simp [List.flatMap_cons, ofUnits?_toUnits_append, ih]

end ThreatTree.Text
