import Mathlib.Data.List.Forall2
import ThreatTree.Proofs.Document.Parts

/-!
# What entries declare

An entry declares a node: its id and its label, the predecessors that it lists, the labels of the
edges from them, and which of these edges run backwards (`Shape.Declares`). All of it is said of the
entry as it is written. A predecessor may be listed several times, with labels that are missing,
null or empty; the label of its edge is the first one that is there (`Shape.FirstLabels`).

The reader of references keeps one label for each predecessor that has one, and this is the first
(`Reference.lookup_edgeLabels`).
-/

namespace ThreatTree

namespace Shape

/-! ## Labels of edges -/

/-- The reference gives the edge from a node a label, which is not empty. -/
def Labels (v : Value) (id label : String) : Prop :=
  v = .mapping [(.str id, .str label)] ∧ label ≠ ""

/-- The first label that references give to the edge from a node. -/
def FirstLabels (items : List Value) (id label : String) : Prop :=
  ∃ before v after, items = before ++ v :: after ∧ Labels v id label
    ∧ ∀ w ∈ before, ∀ other, ¬ Labels w id other

theorem Labels.unique {v : Value} {id id' label label' : String} (h : Labels v id label)
    (h' : Labels v id' label') : id = id' ∧ label = label' := by
  obtain ⟨rfl, -⟩ := h
  obtain ⟨heq, -⟩ := h'
  simpa using heq

theorem not_firstLabels_nil {id label : String} : ¬ FirstLabels [] id label := by
  rintro ⟨before, v, after, hitems, -⟩
  exact absurd hitems (by simp)

theorem firstLabels_cons_of_labels {v : Value} {items : List Value} {id label : String}
    (h : Labels v id label) {other : String} :
    FirstLabels (v :: items) id other ↔ label = other := by
  constructor
  · rintro ⟨_ | ⟨w, before⟩, u, after, hitems, hu, hbefore⟩
    · obtain ⟨rfl, -⟩ := List.cons.inj hitems
      exact (h.unique hu).2
    · obtain ⟨rfl, -⟩ := List.cons.inj hitems
      exact absurd h (hbefore v List.mem_cons_self label)
  · rintro rfl
    exact ⟨[], v, items, rfl, h, by simp⟩

theorem firstLabels_cons_of_not_labels {v : Value} {items : List Value} {id : String}
    (h : ∀ label, ¬ Labels v id label) {label : String} :
    FirstLabels (v :: items) id label ↔ FirstLabels items id label := by
  constructor
  · rintro ⟨_ | ⟨w, before⟩, u, after, hitems, hu, hbefore⟩
    · obtain ⟨rfl, -⟩ := List.cons.inj hitems
      exact absurd hu (h label)
    · obtain ⟨-, rfl⟩ := List.cons.inj hitems
      exact ⟨before, u, after, rfl, hu, fun w hw => hbefore w (List.mem_cons_of_mem _ hw)⟩
  · rintro ⟨before, u, after, rfl, hu, hbefore⟩
    exact ⟨v :: before, u, after, rfl, hu, List.forall_mem_cons.2 ⟨h, hbefore⟩⟩

/-! ## Nodes of entries -/

/-- What is under `from`, in the record of an entry or beside it. -/
def predecessorsOf (v : Value) : Option Value :=
  underKey .predecessors (recordOf v) (entriesOf v)

/-- What is under `backwards`, in the record of an entry or beside it. -/
def backwardsOf (v : Value) : Option Value := underKey .backwards (recordOf v) (entriesOf v)

/-- The entry is that of a node in the section of a category. -/
structure Declares (v : Value) (category : Category) (n : Node) : Prop where
  category_eq : n.category = category
  /-- The id is the only key that is not reserved. -/
  hasId : ∃ value, ownEntries v = [(.str n.id, value)] ∧ Text.allBlank n.id.toList = false
  /-- The predecessors are the references under `from`, one for one. -/
  lists : Lists (predecessorsOf v) n.predecessors
  /-- A predecessor has one label at most, and labels are not empty. -/
  nodup_labelled : (n.edgeLabels.map (·.1)).Nodup
  labelled_mem : ∀ p ∈ n.edgeLabels, p.1 ∈ n.predecessors ∧ p.2 ≠ ""
  /-- The label of an edge is the first one that is given to it. -/
  edgeLabel_iff : ∀ id label, n.edgeLabel id = some label
    ↔ FirstLabels (itemsOf (predecessorsOf v)) id label
  nodup_backwards : n.backwards.Nodup
  backwards_mem : ∀ id ∈ n.backwards, id ∈ n.predecessors
  /-- All edges run backwards if the entry says no more than that, in the order of the list. -/
  all_backwards : backwardsOf v = some (.bool true) →
    (∀ id ∈ n.predecessors, id ∈ n.backwards)
    ∧ n.backwards.Pairwise fun id id' => n.predecessors.idxOf id < n.predecessors.idxOf id'

end Shape

open Shape

/-! ## Labels that are kept -/

section Lookup

variable {α β : Type} [DecidableEq α]

theorem lookup_filter_of_ne {k key : α} (h : k ≠ key) (l : List (α × β)) :
    (l.filter fun p => p.1 ≠ key).lookup k = l.lookup k := by
  induction l with
  | nil => rfl
  | cons p l ih =>
    obtain ⟨key', b⟩ := p
    by_cases hkey : key' = key
    · subst hkey
      rw [List.filter_cons_of_neg (by simp), ih, List.lookup_cons, beq_false_of_ne h]
    · rw [List.filter_cons_of_pos (by simpa using hkey), List.lookup_cons, List.lookup_cons, ih]

/-- Of the pairs with one key the first is kept, and it is the first that is found. -/
theorem lookup_distinctBy (l : List (α × β)) (k : α) :
    (distinctBy (·.1) l).lookup k = l.lookup k := by
  induction l with
  | nil => rfl
  | cons p l ih =>
    obtain ⟨key, b⟩ := p
    rw [distinctBy, List.lookup_cons, List.lookup_cons]
    by_cases hk : k = key
    · rw [beq_iff_eq.2 hk]
    · rw [beq_false_of_ne hk, lookup_filter_of_ne hk, ih]

end Lookup

namespace Reference

/-- A reference and the value that it was read from. -/
structure IsOf (r : Reference) (v : Value) : Prop where
  refersTo : RefersTo v r.source
  labelled?_iff : ∀ id label, r.labelled? = some (id, label) ↔ Labels v id label

theorem labelled?_eq_some_iff {r : Reference} {id label : String} :
    r.labelled? = some (id, label) ↔ r.source = id ∧ r.label = some label ∧ label ≠ "" := by
  obtain ⟨source, text⟩ := r
  cases text with
  | none => simp [labelled?]
  | some text =>
    by_cases h : text = ""
    · refine iff_of_false (by simp [labelled?, h]) ?_
      rintro ⟨-, hlabel, hne⟩
      exact hne ((Option.some.inj hlabel).symm.trans h)
    · simp only [labelled?, String.isEmpty_iff, h, if_false, Option.some.injEq, Prod.mk.injEq]
      constructor
      · rintro ⟨rfl, rfl⟩
        exact ⟨rfl, rfl, h⟩
      · rintro ⟨rfl, rfl, -⟩
        exact ⟨rfl, rfl⟩

theorem isOf_id (id : String) : IsOf ⟨id, none⟩ (.str id) :=
  ⟨.id id, fun _ _ => by simp [labelled?_eq_some_iff, Labels]⟩

theorem isOf_unlabelled (id : String) : IsOf ⟨id, none⟩ (.mapping [(.str id, .null)]) :=
  ⟨.unlabelled id, fun _ _ => by simp [labelled?_eq_some_iff, Labels]⟩

theorem isOf_labelled (id label : String) :
    IsOf ⟨id, some label⟩ (.mapping [(.str id, .str label)]) :=
  ⟨.labelled id label, fun _ _ => by simp [labelled?_eq_some_iff, Labels, and_assoc]⟩

/-- The labels that are found are the first ones that are given. -/
theorem lookup_edgeLabels {items : List Value} {refs : List Reference}
    (h : List.Forall₂ (fun v r => r.IsOf v) items refs) (id label : String) :
    (edgeLabels refs).lookup id = some label ↔ FirstLabels items id label := by
  rw [edgeLabels, lookup_distinctBy]
  induction h with
  | nil => simp [not_firstLabels_nil]
  | @cons v r items refs hr _ ih =>
    rw [List.filterMap_cons]
    cases hlabelled : r.labelled? with
    | none =>
      have hnot (l : String) : ¬ Labels v id l := by
        rw [← hr.labelled?_iff, hlabelled]
        simp
      rw [firstLabels_cons_of_not_labels hnot, ← ih]
    | some p =>
      obtain ⟨source, first⟩ := p
      have hfirst := (hr.labelled?_iff source first).1 hlabelled
      rw [List.lookup_cons]
      by_cases hid : id = source
      · subst hid
        rw [beq_self_eq_true, firstLabels_cons_of_labels hfirst, Option.some.injEq]
      · have hnot (l : String) (hl : Labels v id l) : False := hid (hl.unique hfirst).1
        rw [beq_false_of_ne hid, firstLabels_cons_of_not_labels hnot, ← ih]

theorem nodup_edgeLabels (refs : List Reference) : ((edgeLabels refs).map (·.1)).Nodup :=
  nodup_distinctBy _ _

theorem mem_edgeLabels {refs : List Reference} {p : String × String} (h : p ∈ edgeLabels refs) :
    p.1 ∈ refs.map (·.source) ∧ p.2 ≠ "" := by
  have hmem := (distinctBy_sublist _ _).mem h
  obtain ⟨r, hr, hlabelled⟩ := List.mem_filterMap.1 hmem
  obtain ⟨hsource, -, hne⟩ := labelled?_eq_some_iff.1 hlabelled
  exact ⟨List.mem_map.2 ⟨r, hr, hsource⟩, hne⟩

end Reference

end ThreatTree
