import ThreatTree.Proofs.Document.Refusal

/-!
# Entries that are spelled differently

An entry can give its label beside its id or in a record, and each of the keys `from` and
`backwards` in the record or beside it (`Shape.Spells`). What is read first of all, the parts of
the entry, are the same for all spellings (`readEntry_of_spells`), and everything else is a function
of these parts. So all spellings have one outcome, a node or a fault with its path.

The main statement, `ofValue_spelled`, says this for every id, label and whatever stands under the
two keys, and that a key which stands both in the record and beside it is refused.
-/

namespace ThreatTree

open Value (Entries)

/-! ## Look-up by name -/

theorem Value.Entries.exists_get?_of_mem {name : String} {entries : Entries} {v : Value}
    (h : (.str name, v) ∈ entries) : ∃ w, get? name entries = some w := by
  fun_induction get? name entries with
  | case1 => cases h
  | case2 w rest => exact ⟨w, rfl⟩
  | case3 k w rest hk ih =>
    rcases List.mem_cons.1 h with heq | h
    · cases heq
      exact absurd rfl hk
    · exact ih h
  | case4 e rest hk ih =>
    rcases List.mem_cons.1 h with rfl | h
    · exact absurd rfl (hk name v)
    · exact ih h

/-- What is found under a name is the one value that stands there. -/
theorem Value.Entries.get?_eq_of_mem_iff {name : String} {entries : Entries} {value : Option Value}
    (h : ∀ v, (.str name, v) ∈ entries ↔ value = some v) : get? name entries = value := by
  cases hget : get? name entries with
  | some v => exact ((h v).1 (mem_of_get? hget)).symm
  | none =>
    cases value with
    | none => rfl
    | some v =>
      obtain ⟨w, hw⟩ := exists_get?_of_mem ((h v).2 rfl)
      exact absurd (hget.symm.trans hw) (by simp)

theorem Reserved.name_inj {key key' : Reserved} : key.name = key'.name ↔ key = key' := by
  cases key <;> cases key' <;> decide

theorem isReserved_iff {v : Value} : isReserved v = true ↔ ∃ key : Reserved, v = .str key.name := by
  constructor
  · intro h
    unfold isReserved at h
    split at h
    · next s =>
      rcases Bool.or_eq_true_iff.1 h with h | h
      · exact ⟨.predecessors, by rw [eq_of_beq h]⟩
      · exact ⟨.backwards, by rw [eq_of_beq h]⟩
    · cases h
  · rintro ⟨key, rfl⟩
    cases key <;> decide

theorem label_ne_name (key : Reserved) : "label" ≠ key.name := by
  cases key <;> decide

namespace Shape

/-! ## Spellings -/

/-- The reserved keys that stand in a place, with what is given under them. -/
def attributes (given : Reserved → Option Value) (here : Reserved → Bool) : Entries :=
  [Reserved.predecessors, .backwards].filterMap fun key =>
    if here key then (given key).map fun v => (.str key.name, v) else none

/-- The value is an entry with an id, a label and what is given under the reserved keys. Keys are in
any order; a record may have more keys, and holds some of those that are reserved. -/
inductive Spells (id label : String) (given : Reserved → Option Value) : Value → Prop
  | plain {entries : Entries} :
      entries.Perm ((.str id, .str label) :: attributes given fun _ => true) →
      Spells id label given (.mapping entries)
  | record {entries record more : Entries} (inside : Reserved → Bool) :
      entries.Perm ((.str id, .mapping record) :: attributes given fun key => !inside key) →
      record.Perm (((.str "label", .str label) :: more) ++ attributes given inside) →
      (∀ e ∈ more, e.1 ≠ .str "label" ∧ ∀ key : Reserved, e.1 ≠ .str key.name) →
      Spells id label given (.mapping entries)

section Attributes

variable {given : Reserved → Option Value} {here : Reserved → Bool}

theorem mem_attributes_iff {e : Value × Value} : e ∈ attributes given here
    ↔ ∃ key v, here key = true ∧ given key = some v ∧ e = (.str key.name, v) := by
  simp only [attributes, List.mem_filterMap]
  constructor
  · rintro ⟨key, -, hkey⟩
    by_cases hhere : here key = true
    · rw [if_pos hhere] at hkey
      obtain ⟨v, hv, rfl⟩ := Option.map_eq_some_iff.1 hkey
      exact ⟨key, v, hhere, hv, rfl⟩
    · rw [if_neg hhere] at hkey
      cases hkey
  · rintro ⟨key, v, hhere, hv, rfl⟩
    refine ⟨key, by cases key <;> simp, ?_⟩
    rw [if_pos hhere, hv, Option.map_some]

/-- A reserved key is found where it stands, and nowhere else. -/
theorem get?_reserved {entries front : Entries} (h : entries.Perm (front ++ attributes given here))
    (key : Reserved) (hfront : ∀ e ∈ front, e.1 ≠ .str key.name) :
    Entries.get? key.name entries = if here key then given key else none := by
  refine Value.Entries.get?_eq_of_mem_iff fun v => ?_
  rw [h.mem_iff, List.mem_append, mem_attributes_iff]
  constructor
  · rintro (hmem | ⟨key', w, hhere, hw, heq⟩)
    · exact absurd rfl (hfront _ hmem)
    · obtain ⟨hname, rfl⟩ := Prod.mk.inj heq
      obtain rfl := Reserved.name_inj.1 (Value.str.inj hname)
      rw [if_pos hhere, hw]
  · intro hv
    by_cases hhere : here key = true
    · rw [if_pos hhere] at hv
      exact .inr ⟨key, v, hhere, hv, rfl⟩
    · rw [if_neg hhere] at hv
      cases hv

/-- The only key beside those that are reserved. -/
theorem ownEntries_of_perm {entries : Entries} {id : String} {value : Value}
    (hid : isReserved (.str id) = false)
    (h : entries.Perm ((.str id, value) :: attributes given here)) :
    ownEntries (.mapping entries) = [(.str id, value)] := by
  have hnone : (attributes given here).filter (fun e => !isReserved e.1) = [] := by
    rw [List.filter_eq_nil_iff]
    intro e he
    obtain ⟨key, v, -, -, rfl⟩ := mem_attributes_iff.1 he
    simp [isReserved_iff]
  have hperm := h.filter fun e => !isReserved e.1
  rw [List.filter_cons_of_pos (by simp [hid]), hnone] at hperm
  exact List.perm_singleton.1 hperm

end Attributes

end Shape

open Shape

/-! ## Reading a spelling -/

theorem readId_of_ownEntries {path : Path} {entries : Entries} {id : String} {value : Value}
    (h : ownEntries (.mapping entries) = [(.str id, value)]) :
    readId path entries = pure (id, value) := by
  change (entries.filter fun e => !isReserved e.1) = _ at h
  rw [readId, h]

/-- In a record, the label is read first, and then the reserved keys. -/
theorem readEntry_eq_of_record {path : Path} {entries record : Entries} {id : String}
    (hown : ownEntries (.mapping entries) = [(.str id, .mapping record)]) :
    readEntry path (.mapping entries) = match Entries.get? "label" record with
      | none | some .null => Refusal.throwAt path .missingLabel
      | some (.str label) => do
        let predecessors ← readReserved path .predecessors record entries
        let backwards ← readReserved path .backwards record entries
        return ⟨id, label, predecessors, backwards⟩
      | some _ => Refusal.throwAt (path ++ [.field "label"]) .notText := by
  unfold readEntry
  dsimp only
  rw [readId_of_ownEntries hown]
  rfl

theorem readEntry_of_record {path : Path} {entries record : Entries} {id label : String}
    (hown : ownEntries (.mapping entries) = [(.str id, .mapping record)])
    (hlabel : Entries.get? "label" record = some (.str label)) :
    readEntry path (.mapping entries) = do
      let predecessors ← readReserved path .predecessors record entries
      let backwards ← readReserved path .backwards record entries
      return ⟨id, label, predecessors, backwards⟩ := by
  simp only [readEntry_eq_of_record hown, hlabel]

/-- A key that stands in one of two places is read from there. -/
theorem readReserved_of_inside {path : Path} {key : Reserved} {record siblings : Entries}
    {value : Option Value} {inside : Bool}
    (hrecord : Entries.get? key.name record = if inside then value else none)
    (hsiblings : Entries.get? key.name siblings = if !inside then value else none) :
    readReserved path key record siblings = .ok value := by
  rw [readReserved, hrecord, hsiblings]
  cases inside <;> cases value <;> rfl

section Spelled

variable {id label : String} (hid : isReserved (.str id) = false)
include hid

theorem ne_of_not_isReserved (key : Reserved) : Value.str id ≠ .str key.name := by
  intro heq
  rw [isReserved_iff.2 ⟨key, heq⟩] at hid
  cases hid

/-- All spellings of an entry have the same parts. -/
theorem readEntry_of_spells {given : Reserved → Option Value} {v : Value}
    (h : Spells id label given v) (path : Path) :
    readEntry path v = .ok ⟨id, label, given .predecessors, given .backwards⟩ := by
  have hne := ne_of_not_isReserved hid
  cases h with
  | @plain entries hentries =>
    have hget (key : Reserved) : Entries.get? key.name entries = given key :=
      @get?_reserved given _ entries [(.str id, .str label)] hentries key
        (List.forall_mem_singleton.2 (hne key))
    simp only [readEntry, readId_of_ownEntries (ownEntries_of_perm hid hentries), pure_bind, hget]
    rfl
  | @record entries record more inside hentries hrecord hmore =>
    have hlabel : Entries.get? "label" record = some (.str label) := by
      refine Value.Entries.get?_eq_of_mem_iff fun v => ?_
      rw [hrecord.mem_iff, List.mem_append, List.mem_cons, Option.some.injEq]
      constructor
      · rintro ((heq | hmem) | hmem)
        · exact (Prod.mk.inj heq).2.symm
        · exact absurd rfl (hmore _ hmem).1
        · obtain ⟨key, w, -, -, heq⟩ := mem_attributes_iff.1 hmem
          exact absurd (Value.str.inj (Prod.mk.inj heq).1) (label_ne_name key)
      · rintro rfl
        exact .inl (.inl rfl)
    have hinside (key : Reserved) :
        Entries.get? key.name record = if inside key then given key else none := by
      refine get?_reserved hrecord key (List.forall_mem_cons.2 ⟨?_, fun e he => (hmore e he).2 key⟩)
      exact fun heq => label_ne_name key (Value.str.inj heq)
    have hbeside (key : Reserved) :
        Entries.get? key.name entries = if !inside key then given key else none :=
      @get?_reserved given _ entries [(.str id, .mapping record)] hentries key
        (List.forall_mem_singleton.2 (hne key))
    rw [readEntry_of_record (ownEntries_of_perm hid hentries) hlabel]
    rw [readReserved_of_inside (hinside .predecessors) (hbeside .predecessors),
      readReserved_of_inside (hinside .backwards) (hbeside .backwards)]
    rfl

end Spelled

/-! ## Outcomes -/

/-- An entry whose parts are read has a node, or a fault with its path. -/
theorem ofEntry_outcome {path : Path} {v : Value} {e : Entry} (h : readEntry path v = .ok e)
    (category : Category) : (∃ n, Node.ofEntry category path e = .ok n)
      ∨ ∃ m, Node.ofEntry category path e = .error (.malformed m) := by
  have hread := @checks_readEntry path v
  rw [h] at hread
  cases hread with
  | ok _ he =>
    have hchecks := @checks_ofEntry True path category v e he
    generalize Node.ofEntry category path e = r at hchecks
    cases hchecks with
    | ok => exact .inl ⟨_, rfl⟩
    | malformed => exact .inr ⟨_, rfl⟩
    | unwritable hnot => exact absurd trivial hnot

/-- An entry with a reserved key in its record and beside it is refused with the path to a part. -/
theorem exists_malformed_of_twice {path : Path} {entries record : Entries} {id : String}
    {key : Reserved} (hown : ownEntries (.mapping entries) = [(.str id, .mapping record)])
    (htwice : ¬ OnlyOnce key record entries) (category : Category) :
    ∃ m, Node.ofValue category path (.mapping entries) = .error (.malformed m) := by
  have hchecks : Checks True
      [⟨path, HasLabel (.mapping record)⟩,
        ⟨path ++ [.field "label"], Optionally IsText (Entries.get? "label" record)⟩,
        ⟨path, OnlyOnce .predecessors record entries⟩,
        ⟨path, OnlyOnce .backwards record entries⟩] (·.IsOf (.mapping entries))
      (readEntry path (.mapping entries)) := by
    rw [readEntry_eq_of_record hown]
    exact checks_record hown
  unfold Node.ofValue
  generalize readEntry path (.mapping entries) = r at hchecks
  cases hchecks with
  | ok hparts =>
    simp only [List.forall_mem_cons] at hparts
    cases key with
    | predecessors => exact absurd hparts.2.2.1 htwice
    | backwards => exact absurd hparts.2.2.2.1 htwice
  | malformed => exact ⟨_, rfl⟩
  | unwritable hnot => exact absurd trivial hnot

/-- Whatever else an entry has, no node has a record that shares a reserved key with it. -/
theorem not_twice_of_ofValue {path : Path} {category : Category} {entries record : Entries}
    {id : String} {n : Node} (h : Node.ofValue category path (.mapping entries) = .ok n)
    (hid : isReserved (.str id) = false) (hmem : (.str id, .mapping record) ∈ entries)
    (key : Reserved) : OnlyOnce key record entries := by
  have hchecks := @checks_node path category (.mapping entries)
  rw [h] at hchecks
  have hown : (.str id, .mapping record) ∈ entries.filter fun e => !isReserved e.1 :=
    List.mem_filter.2 ⟨hmem, by simp [hid]⟩
  cases hchecks with
  | ok hparts =>
    cases (isEntry_iff path _).1 hparts with
    | plain hhas =>
      obtain ⟨id', hfilter, -⟩ := hhas
      rw [hfilter] at hown
      cases List.mem_singleton.1 hown
    | record hhas _ htwice =>
      obtain ⟨id', hfilter, -⟩ := hhas
      rw [hfilter] at hown
      cases List.mem_singleton.1 hown
      exact htwice key

/-- **All spellings of an entry have one outcome**, a node or a fault with its path and problem. An
entry that has a reserved key both in its record and beside it is refused, and with a path if it has
no second id. -/
theorem Node.ofValue_spelled {id : String} (hid : ∀ key : Reserved, id ≠ key.name)
    (category : Category) (path : Path) :
    (∀ label given v w, Spells id label given v → Spells id label given w →
      Node.ofValue category path v = Node.ofValue category path w
      ∧ ((∃ n, Node.ofValue category path v = .ok n)
        ∨ ∃ m, Node.ofValue category path v = .error (.malformed m)))
    ∧ ∀ entries record, (.str id, .mapping record) ∈ entries → ∀ key : Reserved,
      Entries.get? key.name record ≠ none → Entries.get? key.name entries ≠ none →
        (∀ n, Node.ofValue category path (.mapping entries) ≠ .ok n)
        ∧ (ownEntries (.mapping entries) = [(.str id, .mapping record)] →
          ∃ m, Node.ofValue category path (.mapping entries) = .error (.malformed m)) := by
  have hid : isReserved (.str id) = false := by
    rw [Bool.eq_false_iff, ne_eq, isReserved_iff]
    rintro ⟨key, heq⟩
    exact hid key (Value.str.inj heq)
  constructor
  · intro label given v w hv hw
    have hread := readEntry_of_spells hid hv path
    have hparts (u : Value) (hu : Spells id label given u) : Node.ofValue category path u
        = Node.ofEntry category path ⟨id, label, given .predecessors, given .backwards⟩ := by
      rw [Node.ofValue, readEntry_of_spells hid hu path]
      rfl
    rw [hparts v hv, hparts w hw]
    exact ⟨rfl, ofEntry_outcome hread category⟩
  · intro entries record hmem key hrecord hbeside
    have htwice : ¬ OnlyOnce key record entries := not_or.2 ⟨hrecord, hbeside⟩
    constructor
    · exact fun n hn => htwice (not_twice_of_ofValue hn hid hmem key)
    · exact fun hown => exists_malformed_of_twice hown htwice category

/-- An entry with one key in its record, in front of the label, and one beside it. -/
def Value.recorded : Value := .mapping
  [(.str "backwards", .str "b"), (.str "x", .mapping [(.int 1, .null),
    (.str "from", .list [.str "a", .mapping [(.str "b", .str "B")]]), (.str "label", .str "X")])]

/-- The same entry with its keys beside the label. -/
def Value.flattened : Value := .mapping
  [(.str "from", .list [.str "a", .mapping [(.str "b", .str "B")]]), (.str "x", .str "X"),
    (.str "backwards", .str "b")]

/-- An entry with a key both in its record and beside it, null each time. -/
def Value.twofold : Value := .mapping
  [(.str "from", .null), (.str "x", .mapping [(.str "label", .str "X"), (.str "from", .null)])]

theorem Node.ofValue_spelled_recorded : Node.ofValue .goal [.field "goals", .item 0] .recorded
      = Node.ofValue .goal [.field "goals", .item 0] .flattened
    ∧ (∃ n, Node.ofValue .goal [.field "goals", .item 0] .flattened = .ok n)
    ∧ ∃ m, Node.ofValue .goal [.field "goals", .item 0] .twofold = .error (.malformed m) := by
  have hid (key : Reserved) : "x" ≠ key.name := by cases key <;> decide
  let given (key : Reserved) : Option Value :=
    if key = .predecessors then some (.list [.str "a", .mapping [(.str "b", .str "B")]])
    else some (.str "b")
  have hrecorded : Spells "x" "X" given .recorded :=
    @Spells.record "x" "X" given _ _ [(.int 1, .null)] (fun key => key = .predecessors)
      (.swap _ _ _) ((List.Perm.cons _ (.swap _ _ _)).trans (.swap _ _ _)) (by simp)
  have hflattened : Spells "x" "X" given .flattened := .plain (.swap _ _ _)
  obtain ⟨halike, htwice⟩ := ofValue_spelled hid .goal [.field "goals", .item 0]
  refine ⟨(halike _ _ _ _ hrecorded hflattened).1, ⟨_, rfl⟩, ?_⟩
  exact (htwice
    [(.str "from", .null), (.str "x", .mapping [(.str "label", .str "X"), (.str "from", .null)])]
    [(.str "label", .str "X"), (.str "from", .null)] (List.mem_cons_of_mem _ List.mem_cons_self)
    .predecessors (Option.some_ne_none _) (Option.some_ne_none _)).2 rfl

end ThreatTree
