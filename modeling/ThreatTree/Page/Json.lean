import ThreatTree.Location.Offsets

/-!
# Offsets in a script

The table of offsets as a JSON text that may stand in a script inside HTML. It has only ASCII
characters, and none of the four that could end the script or an attribute; keys stand in
the order of their code points.
-/

namespace ThreatTree.Json

/-- Four hexadecimal digits after a backslash and `u`. -/
def unicodeEscape (n : Nat) : List Char :=
  let digits := Nat.toDigits 16 n
  '\\' :: 'u' :: List.replicate (4 - digits.length) '0' ++ digits

/-- The letter that stands for a control character after a backslash. -/
def shortEscape? (c : Char) : Option Char :=
  [('"', '"'), ('\\', '\\'), ('\n', 'n'), ('\r', 'r'), ('\t', 't'), ('\x0c', 'f'),
    ('\x08', 'b')].lookup c

/-- A character that is written by its number although it is printable ASCII. -/
def isUnsafe (c : Char) : Bool := c == '<' || c == '>' || c == '&' || c == '\''

def escapeChar (c : Char) : List Char :=
  match shortEscape? c with
  | some e => ['\\', e]
  | none =>
    if 0x20 ≤ c.toNat && c.toNat ≤ 0x7E && !isUnsafe c then [c]
    else (Text.toUnits c).flatMap unicodeEscape

def string (s : List Char) : List Char := '"' :: s.flatMap escapeChar ++ ['"']

/-- A start and an end. -/
def pair (p : Nat × Nat) : List Char :=
  "[".toList ++ (toString p.1).toList ++ ", ".toList ++ (toString p.2).toList ++ "]".toList

/-- Members in the order of their keys. -/
def sortMembers {α : Type} (members : List (String × α)) : List (String × α) :=
  members.mergeSort fun a b => a.1 ≤ b.1

def object (members : List (String × List Char)) : List Char :=
  '\x7b' :: Text.join [',', ' '] (members.map fun m => string m.1.toList ++ [':', ' '] ++ m.2)
    ++ ['\x7d']

/-- A table of starts and ends. -/
def table (entries : List (String × Nat × Nat)) : List Char :=
  object ((sortMembers entries).map fun e => (e.1, pair e.2))

/-- The table of offsets. -/
def offsets (o : Location.Offsets) : List Char :=
  object [("edges", table o.edges), ("nodes", table o.nodes)]

end ThreatTree.Json
