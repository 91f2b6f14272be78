import ThreatTree.Document.Grammar

/-!
# The parts of a document

The parts of a value that is to describe a document, in their order, each with the path to it and
what is asked of it. The order is that of the document: the title, the theme, and the sections with
their entries; in an entry, the id and the label, the references under `from`, what is under
`backwards`, and at last that the id is not blank.

What is asked of a part is said of the value as a whole, whether or not earlier parts are as they
should be. `isDocument_iff` says that a value is a document exactly if all of its parts are. Where
some are not, one of them is the first (`IsFirstFault`).
-/

namespace ThreatTree.Shape

open Value (Entries)

/-- A part of a value: the path to it, and what is asked of it. -/
structure Part where
  path : Path
  fits : Prop

/-- The path leads to the first part that is not as it should be. -/
def IsFirstFault (parts : List Part) (path : Path) : Prop :=
  ∃ before part after, parts = before ++ part :: after ∧ (∀ p ∈ before, p.fits)
    ∧ ¬ part.fits ∧ part.path = path

/-! ## First faults -/

theorem IsFirstFault.append_right {parts : List Part} {path : Path}
    (h : IsFirstFault parts path) (more : List Part) : IsFirstFault (parts ++ more) path := by
  obtain ⟨before, part, after, rfl, h⟩ := h
  exact ⟨before, part, after ++ more, by simp, h⟩

theorem IsFirstFault.append_left {parts front : List Part} {path : Path}
    (hfront : ∀ p ∈ front, p.fits) (h : IsFirstFault parts path) :
    IsFirstFault (front ++ parts) path := by
  obtain ⟨before, part, after, rfl, hbefore, hpart⟩ := h
  exact ⟨front ++ before, part, after, by simp,
    List.forall_mem_append.2 ⟨hfront, hbefore⟩, hpart⟩

theorem IsFirstFault.not_fits {parts : List Part} {path : Path} (h : IsFirstFault parts path) :
    ∃ p ∈ parts, ¬ p.fits := by
  obtain ⟨before, part, after, rfl, -, hpart, -⟩ := h
  exact ⟨part, List.mem_append_right _ List.mem_cons_self, hpart⟩

/-! ## Pieces of values -/

def IsMapping (v : Value) : Prop := ∃ entries, v = .mapping entries

def IsList (v : Value) : Prop := ∃ items, v = .list items

/-- The entries of a mapping. Other values have none. -/
def entriesOf : Value → Entries
  | .mapping entries => entries
  | _ => []

/-- The items of a list. Other values have none. -/
def itemsOf : Option Value → List Value
  | some (.list items) => items
  | _ => []

/-- What an entry has under keys that are not reserved. -/
def ownEntries (v : Value) : Entries := (entriesOf v).filter fun e => !isReserved e.1

/-- The record of an entry, which is under its only key that is not reserved. -/
def recordOf (v : Value) : Entries :=
  match ownEntries v with
  | [(_, value)] => entriesOf value
  | _ => []

theorem recordOf_eq {v key value : Value} (h : ownEntries v = [(key, value)]) :
    recordOf v = entriesOf value := by
  rw [recordOf, h]

/-- The value is a label, or a record with something for a label. -/
def HasLabel (value : Value) : Prop :=
  IsText value ∨ ∃ record label, value = .mapping record
    ∧ Entries.get? "label" record = some label ∧ label ≠ .null

theorem hasLabel_mapping_iff {record : Entries} : HasLabel (.mapping record)
    ↔ ∃ label, Entries.get? "label" record = some label ∧ label ≠ .null := by
  simp [HasLabel, IsText]

/-- The reserved key does not stand both in the record and beside it. -/
def OnlyOnce (key : Reserved) (record siblings : Entries) : Prop :=
  Entries.get? key.name record = none ∨ Entries.get? key.name siblings = none

theorem notTwice_iff {record siblings : Entries} : NotTwice record siblings
    ↔ OnlyOnce .predecessors record siblings ∧ OnlyOnce .backwards record siblings := by
  constructor
  · exact fun h => ⟨h .predecessors, h .backwards⟩
  · rintro ⟨hpredecessors, hbackwards⟩ (_ | _)
    · exact hpredecessors
    · exact hbackwards

/-! ## What a list of references says -/

theorem RefersTo.unique {v : Value} {id id' : String} (h : RefersTo v id) (h' : RefersTo v id') :
    id = id' := by
  cases h <;> cases h' <;> rfl

theorem ReferTo.unique {items : List Value} {ids ids' : List String} (h : ReferTo items ids)
    (h' : ReferTo items ids') : ids = ids' := by
  induction h generalizing ids' with
  | nil => cases h'; rfl
  | cons hv _ ih =>
    cases h' with
    | cons hv' htail => rw [RefersTo.unique hv hv', ih htail]

theorem Lists.unique {v : Option Value} {ids ids' : List String} (h : Lists v ids)
    (h' : Lists v ids') : ids = ids' := by
  cases h <;> cases h' <;> first | rfl | exact ReferTo.unique ‹_› ‹_›

/-! ## Parts -/

/-- The parts of the items of a list. -/
def itemParts (path : Path) (parts : Path → Value → List Part) (items : List Value) : List Part :=
  items.zipIdx.flatMap fun p => parts (path ++ [.item p.2]) p.1

def referenceParts (path : Path) (v : Value) : List Part := [⟨path, ∃ id, RefersTo v id⟩]

/-- The parts of what is under `from`. -/
def predecessorParts (path : Path) (v : Option Value) : List Part :=
  ⟨path, Optionally (fun v => IsText v ∨ IsList v) v⟩ :: itemParts path referenceParts (itemsOf v)

/-- The parts of the head of an entry: its id, its label and its keys. -/
def headParts (path : Path) (v : Value) : List Part :=
  [⟨path, IsMapping v⟩,
    ⟨path, ∃ (id : String) (value : Value), ownEntries v = [(.str id, value)]⟩,
    ⟨path, ∀ e ∈ ownEntries v, HasLabel e.2⟩,
    ⟨path ++ [.field "label"], Optionally IsText (Entries.get? "label" (recordOf v))⟩,
    ⟨path, OnlyOnce .predecessors (recordOf v) (entriesOf v)⟩,
    ⟨path, OnlyOnce .backwards (recordOf v) (entriesOf v)⟩]

/-- The parts of an entry behind its head. -/
def bodyParts (path : Path) (v : Value) : List Part :=
  let predecessors := underKey .predecessors (recordOf v) (entriesOf v)
  let backwards := underKey .backwards (recordOf v) (entriesOf v)
  predecessorParts (path ++ [.field Reserved.predecessors.name]) predecessors
    ++ [⟨path ++ [.field Reserved.backwards.name],
        ∃ ids, Lists predecessors ids ∧ Reverses ids backwards⟩,
      ⟨path, ∃ value, HasId (entriesOf v) value⟩]

def entryParts (path : Path) (v : Value) : List Part := headParts path v ++ bodyParts path v

/-- The parts of the section of a category. -/
def sectionParts (entries : Entries) (category : Category) : List Part :=
  let path := [.field category.sectionName]
  let value := Entries.get? category.sectionName entries
  ⟨path, Optionally IsList value⟩ :: itemParts path entryParts (itemsOf value)

/-- The parts of a document. -/
def documentParts (v : Value) : List Part :=
  [⟨[], IsMapping v⟩, ⟨[.field "title"], Optionally IsText (Entries.get? "title" (entriesOf v))⟩,
    ⟨[.field "theme"], Optionally IsText (Entries.get? "theme" (entriesOf v))⟩]
    ++ Category.all.flatMap (sectionParts (entriesOf v))

/-! ## A value is as it should be if all of its parts are -/

theorem optionally_some_iff {shape : Value → Prop} {v : Value} (h : v ≠ .null) :
    Optionally shape (some v) ↔ shape v := by
  cases v <;> first | exact Iff.rfl | exact absurd rfl h

theorem forall_itemParts {path : Path} {parts : Path → Value → List Part} {items : List Value}
    {fits : Value → Prop} (h : ∀ path v, (∀ p ∈ parts path v, p.fits) ↔ fits v) :
    (∀ p ∈ itemParts path parts items, p.fits) ↔ ∀ v ∈ items, fits v := by
  simp only [itemParts, List.mem_flatMap, forall_exists_index, and_imp]
  constructor
  · intro hparts v hv
    obtain ⟨i, hi⟩ := List.mem_iff_getElem?.1 hv
    exact (h _ v).1 fun p hp => hparts p (v, i) (List.mem_zipIdx_iff_getElem?.2 hi) hp
  · intro hfits p e he hp
    exact (h _ e.1).2 (hfits e.1 (List.mem_iff_getElem?.2
      ⟨e.2, List.mem_zipIdx_iff_getElem?.1 he⟩)) p hp

theorem forall_referenceParts (path : Path) (v : Value) :
    (∀ p ∈ referenceParts path v, p.fits) ↔ ∃ id, RefersTo v id :=
  List.forall_mem_singleton

theorem exists_refersTo {items : List Value} {ids : List String} (h : ReferTo items ids) :
    ∀ v ∈ items, ∃ id, RefersTo v id := by
  induction h with
  | nil => simp
  | cons hv _ ih => exact List.forall_mem_cons.2 ⟨⟨_, hv⟩, ih⟩

/-- What lists ids is as it should be, item by item. -/
theorem forall_predecessorParts {path : Path} {v : Option Value} {ids : List String}
    (h : Lists v ids) : ∀ p ∈ predecessorParts path v, p.fits := by
  rw [predecessorParts, List.forall_mem_cons, forall_itemParts forall_referenceParts]
  cases h with
  | missing => simp [Optionally, itemsOf]
  | null => simp [Optionally, itemsOf]
  | single s => simp [Optionally, itemsOf, IsText]
  | list h => exact ⟨.inr ⟨_, rfl⟩, exists_refersTo h⟩

theorem isEntry_iff (path : Path) (v : Value) :
    (∀ p ∈ entryParts path v, p.fits) ↔ IsEntry v := by
  simp only [entryParts, headParts, bodyParts, List.forall_mem_append, List.forall_mem_cons,
    List.not_mem_nil, false_implies, implies_true, and_true, ← notTwice_iff]
  constructor
  · rintro ⟨⟨⟨entries, rfl⟩, -, hlabel, htext, htwice⟩, -, ⟨ids, hlists, hreverses⟩, value, hid⟩
    obtain ⟨id, hown, -⟩ := id hid
    change ownEntries (.mapping entries) = _ at hown
    rw [hown, List.forall_mem_singleton] at hlabel
    rw [recordOf_eq hown] at htext htwice hlists hreverses
    rcases hlabel with ⟨label, rfl⟩ | ⟨record, label, rfl, hget, hnull⟩
    · exact .plain hid hlists hreverses
    · change Optionally IsText (Entries.get? "label" record) at htext
      rw [hget, optionally_some_iff hnull] at htext
      obtain ⟨label, rfl⟩ := htext
      exact .record hid hget htwice hlists hreverses
  · intro h
    cases h with
    | plain hid hlists hreverses =>
      obtain ⟨id, hown, -⟩ := id hid
      change ownEntries (.mapping _) = _ at hown
      rw [recordOf_eq hown, hown, List.forall_mem_singleton]
      exact ⟨⟨⟨_, rfl⟩, ⟨_, _, rfl⟩, .inl ⟨_, rfl⟩, trivial, fun _ => .inl rfl⟩,
        forall_predecessorParts hlists, ⟨_, hlists, hreverses⟩, _, hid⟩
    | record hid hget htwice hlists hreverses =>
      obtain ⟨id, hown, -⟩ := id hid
      change ownEntries (.mapping _) = _ at hown
      rw [recordOf_eq hown, hown, List.forall_mem_singleton, entriesOf, hget]
      exact ⟨⟨⟨_, rfl⟩, ⟨_, _, rfl⟩, .inr ⟨_, _, rfl, hget, by simp⟩, ⟨_, rfl⟩, htwice⟩,
        forall_predecessorParts hlists, ⟨_, hlists, hreverses⟩, _, hid⟩

theorem optionally_isListOf_iff {shape : Value → Prop} {v : Option Value} :
    Optionally (IsListOf shape) v ↔ Optionally IsList v ∧ ∀ item ∈ itemsOf v, shape item := by
  cases v with
  | none => simp [Optionally, itemsOf]
  | some v => cases v <;> simp [Optionally, itemsOf, IsListOf, IsList]

theorem forall_sectionParts {entries : Entries} {category : Category} :
    (∀ p ∈ sectionParts entries category, p.fits)
      ↔ Optionally (IsListOf IsEntry) (Entries.get? category.sectionName entries) := by
  rw [sectionParts, List.forall_mem_cons, optionally_isListOf_iff, forall_itemParts isEntry_iff]

/-- A value is a document exactly if all of its parts are as they should be. -/
theorem isDocument_iff {v : Value} : IsDocument v ↔ ∀ p ∈ documentParts v, p.fits := by
  simp only [documentParts, List.forall_mem_append, List.forall_mem_cons, List.not_mem_nil,
    false_implies, implies_true, and_true, List.forall_mem_flatMap, forall_sectionParts]
  constructor
  · rintro ⟨entries, rfl, htitle, htheme, hsections⟩
    exact ⟨⟨⟨_, rfl⟩, htitle, htheme⟩, fun category _ => hsections category⟩
  · rintro ⟨⟨⟨entries, rfl⟩, htitle, htheme⟩, hsections⟩
    exact ⟨entries, rfl, htitle, htheme, fun category => hsections category category.mem_all⟩

end ThreatTree.Shape
