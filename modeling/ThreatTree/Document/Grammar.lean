import ThreatTree.Document.OfValue

/-!
# The shape of a document

Which values describe an attack tree, said without reading them. `IsDocument` is the shape of
the whole; the relations before it are the shapes of its parts. A reference stands for the id
it names, and the list of ids under `from` is what `backwards` may draw on.
-/

namespace ThreatTree.Shape

open Value (Entries)

/-- The part is missing, or null, or has the shape. -/
def Optionally (shape : Value → Prop) : Option Value → Prop
  | none => True
  | some .null => True
  | some v => shape v

def IsText (v : Value) : Prop := ∃ s, v = .str s

def IsListOf (shape : Value → Prop) (v : Value) : Prop :=
  ∃ items, v = .list items ∧ ∀ item ∈ items, shape item

/-! ## References -/

/-- A reference to a predecessor: its id, or a mapping of its id to a label or null. -/
inductive RefersTo : Value → String → Prop
  | id (s : String) : RefersTo (.str s) s
  | unlabelled (s : String) : RefersTo (.mapping [(.str s, .null)]) s
  | labelled (s label : String) : RefersTo (.mapping [(.str s, .str label)]) s

/-- References to predecessors, one by one. -/
inductive ReferTo : List Value → List String → Prop
  | nil : ReferTo [] []
  | cons {v : Value} {s : String} {vs : List Value} {ss : List String} :
      RefersTo v s → ReferTo vs ss → ReferTo (v :: vs) (s :: ss)

/-- What stands under `from`, and the ids that it lists. -/
inductive Lists : Option Value → List String → Prop
  | missing : Lists none []
  | null : Lists (some .null) []
  | single (s : String) : Lists (some (.str s)) [s]
  | list {vs : List Value} {ss : List String} : ReferTo vs ss → Lists (some (.list vs)) ss

/-- What stands under `backwards`, where `from` lists the given ids. -/
inductive Reverses (ids : List String) : Option Value → Prop
  | missing : Reverses ids none
  | null : Reverses ids (some .null)
  | truth (b : Bool) : Reverses ids (some (.bool b))
  | single {s : String} : s ∈ ids → Reverses ids (some (.str s))
  | list {ss : List String} : (∀ s ∈ ss, s ∈ ids) → Reverses ids (some (.list (ss.map .str)))

/-! ## Entries -/

/-- The entries have one key that is not reserved: a text that is not blank. -/
def HasId (entries : Entries) (value : Value) : Prop :=
  ∃ id : String, (entries.filter fun e => !isReserved e.1) = [(.str id, value)]
    ∧ Text.allBlank id.toList = false

/-- No reserved key stands both in the record and beside it. -/
def NotTwice (record siblings : Entries) : Prop :=
  ∀ key : Reserved,
    Entries.get? key.name record = none ∨ Entries.get? key.name siblings = none

/-- What stands under a reserved key, in the record or beside it. -/
def underKey (key : Reserved) (record siblings : Entries) : Option Value :=
  (Entries.get? key.name record).or (Entries.get? key.name siblings)

/-- The entry of a node: with its label, or with a record that has the label. -/
inductive IsEntry : Value → Prop
  | plain {entries : Entries} {label : String} {ids : List String} :
      HasId entries (.str label) → Lists (underKey .predecessors [] entries) ids →
      Reverses ids (underKey .backwards [] entries) → IsEntry (.mapping entries)
  | record {entries record : Entries} {label : String} {ids : List String} :
      HasId entries (.mapping record) → Entries.get? "label" record = some (.str label) →
      NotTwice record entries → Lists (underKey .predecessors record entries) ids →
      Reverses ids (underKey .backwards record entries) → IsEntry (.mapping entries)

/-! ## Documents -/

/-- A mapping with a title and a theme, and with entries in each section. Other keys do not
matter. -/
def IsDocument (v : Value) : Prop :=
  ∃ entries : Entries, v = .mapping entries
    ∧ Optionally IsText (Entries.get? "title" entries)
    ∧ Optionally IsText (Entries.get? "theme" entries)
    ∧ ∀ category : Category,
        Optionally (IsListOf IsEntry) (Entries.get? category.sectionName entries)

end ThreatTree.Shape
