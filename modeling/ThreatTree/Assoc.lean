import ThreatTree.Distinct

/-!
# Tables

A table is a list of keys and values. Setting a key that is there already keeps its place and
changes only its value, so a table made from a list of pairs has each key at its first place
(`keys_assocOfList`) with its last value (`lookup_assocOfList`, `mem_assocOfList_iff`).
-/

namespace ThreatTree

variable {κ α : Type} [DecidableEq κ]

/-- Set a key: in its place if it is there, else at the end. -/
def assocSet (key : κ) (value : α) : List (κ × α) → List (κ × α)
  | [] => [(key, value)]
  | (k, v) :: rest => if k = key then (k, value) :: rest else (k, v) :: assocSet key value rest

/-- The table that results from setting pairs one after the other. -/
def assocOfList (pairs : List (κ × α)) : List (κ × α) :=
  pairs.foldl (fun table p => assocSet p.1 p.2 table) []

theorem lookup_assocSet_self [BEq κ] [LawfulBEq κ] (key : κ) (value : α) (table : List (κ × α)) :
    (assocSet key value table).lookup key = some value := by
  induction table with
  | nil => simp [assocSet]
  | cons e table ih =>
    obtain ⟨k, v⟩ := e
    by_cases h : k = key
    · simp [assocSet, h]
    · have h' : (key == k) = false := by simpa using fun e => h e.symm
      simp [assocSet, h, List.lookup_cons, h', ih]

theorem lookup_assocSet_of_ne [BEq κ] [LawfulBEq κ] {key other : κ} (h : other ≠ key) (value : α)
    (table : List (κ × α)) : (assocSet key value table).lookup other = table.lookup other := by
  have h' : (other == key) = false := by simpa using h
  induction table with
  | nil => simp [assocSet, List.lookup_cons, h']
  | cons e table ih =>
    obtain ⟨k, v⟩ := e
    by_cases hk : k = key
    · subst hk
      simp [assocSet, List.lookup_cons, h']
    · simp [assocSet, hk, List.lookup_cons, ih]

theorem keys_assocSet (key : κ) (value : α) (table : List (κ × α)) :
    (assocSet key value table).map (·.1)
      = if key ∈ table.map (·.1) then table.map (·.1) else table.map (·.1) ++ [key] := by
  induction table with
  | nil => rfl
  | cons e table ih =>
    obtain ⟨k, v⟩ := e
    rw [assocSet]
    by_cases h : k = key
    · simp [h]
    · have h' : key ≠ k := fun e => h e.symm
      by_cases hmem : key ∈ table.map (·.1) <;> simp_all

theorem assocOfList_concat (pairs : List (κ × α)) (p : κ × α) :
    assocOfList (pairs ++ [p]) = assocSet p.1 p.2 (assocOfList pairs) :=
  List.foldl_append

/-- Keys keep the order in which they are set for the first time. -/
theorem keys_assocOfList (pairs : List (κ × α)) :
    (assocOfList pairs).map (·.1) = distinct (pairs.map (·.1)) := by
  -- The induction goes from the last pair to the first one.
  obtain ⟨later, rfl⟩ : ∃ later : List (κ × α), later.reverse = pairs := ⟨_, pairs.reverse_reverse⟩
  induction later with
  | nil => rfl
  | cons p later ih =>
    rw [List.reverse_cons, assocOfList_concat, keys_assocSet, ih, List.map_append,
      List.map_singleton, distinct_concat]
    simp only [mem_distinct]

/-- The value that is set last counts. -/
theorem lookup_assocOfList (pairs : List (κ × α)) (key : κ) :
    (assocOfList pairs).lookup key = pairs.reverse.lookup key := by
  obtain ⟨later, rfl⟩ : ∃ later : List (κ × α), later.reverse = pairs := ⟨_, pairs.reverse_reverse⟩
  rw [List.reverse_reverse]
  induction later with
  | nil => rfl
  | cons p later ih =>
    rw [List.reverse_cons, assocOfList_concat, List.lookup_cons]
    by_cases h : key = p.1
    · subst h
      rw [lookup_assocSet_self, beq_self_eq_true]
    · rw [lookup_assocSet_of_ne h, beq_false_of_ne h, ih]

/-- In a table without repeated keys, an entry is what is found at its key. -/
theorem lookup_eq_some_iff_mem {κ α : Type} [BEq κ] [LawfulBEq κ] {table : List (κ × α)}
    (h : (table.map (·.1)).Nodup) {key : κ} {value : α} :
    table.lookup key = some value ↔ (key, value) ∈ table := by
  rw [List.lookup_eq_some_iff]
  constructor
  · intro hparts
    obtain ⟨before, after, rfl, -⟩ := hparts
    exact List.mem_append_right _ List.mem_cons_self
  · intro hmem
    obtain ⟨before, after, rfl⟩ := List.append_of_mem hmem
    refine ⟨before, after, rfl, ?_⟩
    intro p hp
    rw [List.map_append, List.map_cons] at h
    have hne := (List.nodup_append.1 h).2.2 p.1 (List.mem_map_of_mem hp) key List.mem_cons_self
    simpa using Ne.symm hne

/-- An entry of the table is a pair that is set, and its key is not set again. -/
theorem mem_assocOfList_iff {pairs : List (κ × α)} {key : κ} {value : α} :
    (key, value) ∈ assocOfList pairs ↔ ∃ before after, pairs = before ++ (key, value) :: after
      ∧ ∀ p ∈ after, p.1 ≠ key := by
  have hnodup : ((assocOfList pairs).map (·.1)).Nodup := by
    rw [keys_assocOfList]
    exact nodup_distinct _
  rw [← lookup_eq_some_iff_mem hnodup, lookup_assocOfList, List.lookup_eq_some_iff]
  constructor
  · intro h
    obtain ⟨later, earlier, hparts, hlater⟩ := h
    refine ⟨earlier.reverse, later.reverse, ?_, ?_⟩
    · rw [← List.reverse_reverse pairs, hparts]
      simp
    · intro p hp heq
      have hne := hlater p (List.mem_reverse.1 hp)
      simp [heq] at hne
  · intro h
    obtain ⟨before, after, rfl, hafter⟩ := h
    refine ⟨after.reverse, before.reverse, by simp, ?_⟩
    intro p hp
    simpa using (hafter p (List.mem_reverse.1 hp)).symm

end ThreatTree
